import Grimnir.Native.Features

/-!
# `csi_models/features.py`: the feature vector

`extract_features` of the rows of a window.  numpy is a parameter: its arithmetic, which is that
of `float32` for the services and exact for what does not depend on rounding, and what it makes
of rows of different widths.  A row is its two lists of numbers, which are converted to the
type of the array as they are read.
-/

namespace Grimnir

/-- The arithmetic of the entries of an array.  The order in which the entries of a column are
    added is numpy's and goes by the width of the array. -/
structure Arith (α : Type) where
  sum : Nat → List α → α
  sub : α → α → α
  mul : α → α → α
  div : α → α → α
  ofNat : Nat → α

namespace Arith

variable {α : Type} (ar : Arith α)

/-- `mean` of a column. -/
def mean (width : Nat) (xs : List α) : α := ar.div (ar.sum width xs) (ar.ofNat xs.length)

/-- `var` of a column: the mean of the squared deviations. -/
def var (width : Nat) (xs : List α) : α :=
  let deviations := xs.map fun x => ar.sub x (ar.mean width xs)
  ar.div (ar.sum width (deviations.map fun d => ar.mul d d)) (ar.ofNat xs.length)

def stat (width : Nat) : Stat → List α → α
  | .mean => ar.mean width
  | .var => ar.var width

end Arith

/-- The keys of a row that features are made of. -/
inductive Channel where
  | amplitude
  | phase
  deriving DecidableEq, Repr

/-- A CSI row, as far as it is read. -/
structure FeatureRow (α : Type) where
  amplitude : List α
  phase : List α
  deriving DecidableEq, Repr

/-- `r[key]`. -/
def FeatureRow.get {α : Type} (r : FeatureRow α) : Channel → List α
  | .amplitude => r.amplitude
  | .phase => r.phase

/-- What `extract_features` raises. -/
inductive FeatureError where
  | valueError (message : String)
  | indexError (message : String)
  deriving DecidableEq, Repr

/-- A two-dimensional array. -/
structure Stack (α : Type) where
  width : Nat
  rows : List (List α)
  uniform : ∀ r ∈ rows, r.length = width

/-- What `extract_features` uses of numpy: the arithmetic, and `asarray` of rows of different
    widths. -/
structure Numpy (α : Type) where
  arith : Arith α
  ragged : List (List α) → Except FeatureError (Stack α)

section

variable {α : Type}

/-- The entries of the rows at `i`. -/
def column (rows : List (List α)) (i : Nat) : List α := rows.filterMap (·[i]?)

theorem uniform_cons {row : List α} {rows : List (List α)}
    (h : ∀ r ∈ rows, r.length = row.length) : ∀ r ∈ row :: rows, r.length = row.length :=
  List.forall_mem_cons.mpr ⟨rfl, h⟩

/-- `np.asarray`, up to the use of `shape[1]`, which an array of no rows does not have. -/
def asarray (np : Numpy α) : List (List α) → Except FeatureError (Stack α)
  | [] => .error (.indexError "tuple index out of range")
  | row :: rows =>
    if h : ∀ r ∈ rows, r.length = row.length then .ok ⟨row.length, row :: rows, uniform_cons h⟩
    else np.ragged (row :: rows)

/-- `_stack`. -/
def stack (np : Numpy α) (rows : List (FeatureRow α)) (key : Channel) :
    Except FeatureError (Stack α) :=
  asarray np (rows.map (·.get key))

/-- `np.concatenate` of one-dimensional arrays. -/
def concatenate : List (List α) → Except FeatureError (List α)
  | [] => .error (.valueError "need at least one array to concatenate")
  | parts => .ok parts.flatten

/-- `stack.mean(axis=0)` or `stack.var(axis=0)`. -/
def Stack.stat (ar : Arith α) (s : Stack α) (stat : Stat) : List α :=
  (List.range s.width).map fun i => ar.stat s.width stat (column s.rows i)

/-- `_apply_stats`. -/
def applyStats (np : Numpy α) (s : Stack α) (stats : List Stat) : Except FeatureError (List α) :=
  concatenate (stats.map (s.stat np.arith))

/-- `if config.include_amplitude`: the width, and the parts so far. -/
def amplitudeParts (np : Numpy α) (rows : List (FeatureRow α)) (config : FeatureConfig) :
    Except FeatureError (Option Nat × List (List α)) :=
  if config.includeAmplitude then do
    let amp ← stack np rows .amplitude
    return (some amp.width, [← applyStats np amp config.stats])
  else return (none, [])

/-- `if config.include_phase`: the parts. -/
def phaseParts (np : Numpy α) (rows : List (FeatureRow α)) (config : FeatureConfig)
    (width : Option Nat) (parts : List (List α)) : Except FeatureError (List (List α)) :=
  if config.includePhase then do
    let phase ← stack np rows .phase
    if width.any (phase.width ≠ ·) then
      throw (.valueError "amplitude and phase row widths disagree")
    return parts ++ [← applyStats np phase config.stats]
  else return parts

/-- `extract_features`. -/
def extractFeatures (np : Numpy α) (rows : List (FeatureRow α)) (config : FeatureConfig) :
    Except FeatureError (List α) :=
  if rows.isEmpty then
    .error (.valueError "extract_features requires at least one row")
  else do
    let (width, parts) ← amplitudeParts np rows config
    concatenate (← phaseParts np rows config width parts)

end

end Grimnir
