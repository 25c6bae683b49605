import Grimnir.Native.Schema

/-!
# `freki/ml_auth.py`: shared secrets

The guard of the machine-only endpoints.  Without a configured secret everything passes.
-/

namespace Grimnir

/-- `hmac.compare_digest` on two strings, which must be ASCII. -/
def compareDigest (a b : String) : Except Failure Bool :=
  if a.toList.all (·.toNat < 128) && b.toList.all (·.toNat < 128) then .ok (a == b)
  else .error (.uncaught "comparing strings with non-ASCII characters is not supported")

/-- The guard of `require_ml_control_secret` and `require_model_upload_secret`. -/
def requireSecret (header configured : String) (provided : Option String) :
    Except Failure Unit :=
  let refused : Failure := .http ⟨401, s!"{header} required"⟩
  if configured = "" then .ok ()
  else
    match provided with
    | none => .error refused
    | some secret =>
      match compareDigest secret configured with
      | .error f => .error f
      | .ok same => if same then .ok () else .error refused

/-- `require_ml_control_secret`. -/
def requireMlControlSecret (configured : String) (provided : Option String) :
    Except Failure Unit :=
  requireSecret "X-Grimnir-ML-Control-Secret" configured provided

/-- `require_model_upload_secret` of `freki/routers/models.py`. -/
def requireModelUploadSecret (configured : String) (provided : Option String) :
    Except Failure Unit :=
  requireSecret "X-Grimnir-Model-Upload-Secret" configured provided

end Grimnir
