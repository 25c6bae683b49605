import Grimnir.Native.Train
import Grimnir.Native.TrainingData
import Grimnir.Native.TrainingJobs

/-!
# `nornir/train.py`: the rows of a job

`run_job` passes the time range and the rooms of its spec to `iter_training_data` and cuts
windows from the documents of the rows that come back.
-/

namespace Grimnir

/-- The arguments of the `iter_training_data` call of `run_job`. -/
def SpecDoc.exportArgs (spec : SpecDoc) : ExportArgs where
  timeStart := spec.timeStart
  timeEnd := spec.timeEnd
  rooms := spec.rooms

/-- A row of a page, as the document that the client reads. -/
def TrainingSampleOut.doc (row : TrainingSampleOut) : RowDoc where
  time := row.time
  receiverId := some row.receiverId
  label := some row.label
  amplitude := row.amplitude
  phase := row.phase

end Grimnir
