import Mathlib.Algebra.BigOperators.Group.List.Basic
import Mathlib.Algebra.Field.Basic
import Mathlib.Algebra.Field.Rat
import Grimnir.ForStd.Blocks
import Grimnir.ForStd.Except
import Grimnir.Native.ExtractFeatures

/-!
# The layout of a feature vector

A window has features when it has rows and all of them have one width in the channels that
are included, provided numpy turns down rows of different widths.  The vector then goes channel
by channel, statistic by statistic and column by column, whatever the arithmetic is; in exact
arithmetic the order of the rows is of no account.

## Key results

- `extractFeatures_eq`: the vector of a consistent window
- `consistent_of_ok` / `raisesOnly_extractFeatures`: any other window raises a `ValueError`
- `features_layout`: when there is a vector, what is where in it, and its independence of order
-/

namespace Grimnir

open Except

variable {α : Type}

/-- The channels that are included. -/
def FeatureConfig.channels (config : FeatureConfig) : List Channel :=
  (if config.includeAmplitude then [.amplitude] else []) ++
    if config.includePhase then [.phase] else []

/-- All rows have `n` entries in a channel. -/
def Uniform (rows : List (FeatureRow α)) (c : Channel) (n : Nat) : Prop :=
  ∀ r ∈ rows, (r.get c).length = n

/-- There are rows, and all of them have `n` entries in every channel that is included. -/
def Consistent (config : FeatureConfig) (rows : List (FeatureRow α)) (n : Nat) : Prop :=
  rows ≠ [] ∧ ∀ c ∈ config.channels, Uniform rows c n

/-- Column `i` of a channel. -/
def channelColumn (rows : List (FeatureRow α)) (c : Channel) (i : Nat) : List α :=
  rows.filterMap fun r => (r.get c)[i]?

/-- The statistics of a channel of `n` columns. -/
def channelPart (ar : Arith α) (config : FeatureConfig) (rows : List (FeatureRow α)) (n : Nat)
    (c : Channel) : List α :=
  config.stats.flatMap fun s => (List.range n).map fun i => ar.stat n s (channelColumn rows c i)

/-- The amplitude channel is there exactly when it is configured. -/
private theorem mem_channels_amplitude (config : FeatureConfig) :
    Channel.amplitude ∈ config.channels ↔ config.includeAmplitude = true := by
  unfold FeatureConfig.channels
  cases config.includeAmplitude <;> cases config.includePhase <;> decide

/-- The phase channel is there exactly when it is configured. -/
private theorem mem_channels_phase (config : FeatureConfig) :
    Channel.phase ∈ config.channels ↔ config.includePhase = true := by
  unfold FeatureConfig.channels
  cases config.includeAmplitude <;> cases config.includePhase <;> decide

/-- A configuration includes one of the channels at least. -/
private theorem channels_ne_nil (config : FeatureConfig) : config.channels ≠ [] := by
  have hone := config.atLeastOneChannel
  unfold FeatureConfig.channels
  revert hone
  cases config.includeAmplitude <;> cases config.includePhase <;> decide

/-- The channels, amplitude before phase. -/
private theorem channels_map {β : Type} (f : Channel → β) (config : FeatureConfig) :
    config.channels.map f = (if config.includeAmplitude then [f .amplitude] else []) ++
      if config.includePhase then [f .phase] else [] := by
  unfold FeatureConfig.channels
  cases config.includeAmplitude <;> cases config.includePhase <;> rfl

/-! ## numpy -/

/-- What a caller has to be ready for. -/
def FeatureError.IsValueError (e : FeatureError) : Prop := ∃ message, e = .valueError message

/-- Rows of different widths are turned down with a `ValueError`. -/
def Numpy.RejectsRagged (np : Numpy α) : Prop :=
  ∀ rows : List (List α), (¬ ∃ n, ∀ r ∈ rows, r.length = n) →
    ∃ message, np.ragged rows = .error (.valueError message)

variable {np : Numpy α} {config : FeatureConfig} {rows : List (FeatureRow α)} {c : Channel}
  {n : Nat}

/-- There is something to concatenate, so it succeeds. -/
private theorem concatenate_eq {parts : List (List α)} (h : parts ≠ []) :
    concatenate parts = .ok parts.flatten := by
  cases parts with
  | nil => exact absurd rfl h
  | cons part parts => rfl

/-- Concatenating nothing raises a `ValueError`. -/
private theorem raisesOnly_concatenate (parts : List (List α)) :
    RaisesOnly FeatureError.IsValueError (concatenate parts) := by
  cases parts with
  | nil => exact (raisesOnly_error _).mpr ⟨_, rfl⟩
  | cons part parts => exact raisesOnly_ok _

/-- Rows of one width make an array. -/
private theorem asarray_eq {lists : List (List α)} (hne : lists ≠ [])
    (h : ∀ r ∈ lists, r.length = n) : asarray np lists = .ok ⟨n, lists, h⟩ := by
  cases lists with
  | nil => exact absurd rfl hne
  | cons row rest =>
    obtain ⟨rfl, hrest⟩ := List.forall_mem_cons.mp h
    exact dif_pos hrest

/-- The array of rows of one width, or else a `ValueError`. -/
private theorem asarray_cases (hnp : np.RejectsRagged) {lists : List (List α)} (hne : lists ≠ []) :
    (∃ n h, asarray np lists = .ok ⟨n, lists, h⟩) ∨
      ∃ message, asarray np lists = .error (.valueError message) := by
  by_cases huniform : ∃ n, ∀ r ∈ lists, r.length = n
  · obtain ⟨n, h⟩ := huniform
    exact .inl ⟨n, h, asarray_eq hne h⟩
  · cases lists with
    | nil => exact absurd rfl hne
    | cons row rest =>
      have hrest : ¬ ∀ r ∈ rest, r.length = row.length :=
        fun h => huniform ⟨row.length, uniform_cons h⟩
      obtain ⟨message, hmessage⟩ := hnp _ huniform
      exact .inr ⟨message, (dif_neg hrest).trans hmessage⟩

/-- Rows of one width are stacked as they are. -/
private theorem stack_eq (np : Numpy α) (hne : rows ≠ []) (h : Uniform rows c n) :
    ∃ hrows, stack np rows c = .ok ⟨n, rows.map (·.get c), hrows⟩ := by
  have hrows : ∀ r ∈ rows.map (·.get c), r.length = n := by
    intro r hr
    obtain ⟨row, hrow, rfl⟩ := List.mem_map.mp hr
    exact h row hrow
  exact ⟨hrows, asarray_eq (by simpa using hne) hrows⟩

/-- Rows that could be stacked have one width. -/
private theorem uniform_of_stack (hnp : np.RejectsRagged) (hne : rows ≠ []) {s : Stack α}
    (h : stack np rows c = .ok s) : Uniform rows c s.width := by
  have hlists : rows.map (·.get c) ≠ [] := by simpa using hne
  obtain ⟨n, hrows, hok⟩ | ⟨message, herror⟩ := asarray_cases hnp hlists
  · cases hok.symm.trans h
    intro r hr
    exact hrows _ (List.mem_map_of_mem hr)
  · cases herror.symm.trans h

/-- Rows that cannot be stacked raise a `ValueError`. -/
private theorem raisesOnly_stack (hnp : np.RejectsRagged) (hne : rows ≠ []) (c : Channel) :
    RaisesOnly FeatureError.IsValueError (stack np rows c) := by
  have hlists : rows.map (·.get c) ≠ [] := by simpa using hne
  unfold stack
  obtain ⟨n, hrows, hok⟩ | ⟨message, herror⟩ := asarray_cases hnp hlists
  · rw [hok]
    exact raisesOnly_ok _
  · rw [herror]
    exact (raisesOnly_error _).mpr ⟨message, rfl⟩

/-- The statistics of an included channel. -/
private theorem applyStats_channel (np : Numpy α) (config : FeatureConfig) (hne : rows ≠ [])
    (h : Uniform rows c n) :
    ∃ s, stack np rows c = .ok s ∧ s.width = n ∧
      applyStats np s config.stats = .ok (channelPart np.arith config rows n c) := by
  obtain ⟨hrows, hstack⟩ := stack_eq np hne h
  refine ⟨_, hstack, rfl, ?_⟩
  have hstats : config.stats ≠ [] := config.statsNonempty
  unfold applyStats
  rw [concatenate_eq (by simpa using hstats)]
  unfold channelPart Stack.stat column channelColumn
  simp only [List.flatMap_def, List.filterMap_map, Function.comp_def]

/-! ## Consistent windows -/

/-- On consistent rows the amplitude part is the channel's statistics. -/
private theorem amplitudeParts_eq (h : Consistent config rows n) :
    amplitudeParts np rows config = .ok (if config.includeAmplitude then some n else none,
      if config.includeAmplitude then [channelPart np.arith config rows n .amplitude] else []) := by
  unfold amplitudeParts
  by_cases hincluded : config.includeAmplitude = true
  · rw [if_pos hincluded, if_pos hincluded, if_pos hincluded]
    obtain ⟨s, hstack, rfl, hstats⟩ := applyStats_channel np config h.1
      (h.2 _ ((mem_channels_amplitude config).mpr hincluded))
    rw [hstack]
    exact bind_eq_ok.mpr ⟨_, rfl, bind_eq_ok.mpr ⟨_, hstats, rfl⟩⟩
  · rw [if_neg hincluded, if_neg hincluded, if_neg hincluded]
    rfl

/-- On consistent rows the phase part is appended, since its width is the amplitudes'. -/
private theorem phaseParts_eq (h : Consistent config rows n) {width : Option Nat}
    (hwidth : ∀ m, width = some m → m = n) (parts : List (List α)) :
    phaseParts np rows config width parts = .ok (parts ++
      if config.includePhase then [channelPart np.arith config rows n .phase] else []) := by
  unfold phaseParts
  -- the phase channel is stacked after the amplitudes, in the same width
  by_cases hincluded : config.includePhase = true
  · rw [if_pos hincluded, if_pos hincluded]
    obtain ⟨s, hstack, rfl, hstats⟩ := applyStats_channel np config h.1
      (h.2 _ ((mem_channels_phase config).mpr hincluded))
    have hagree : ¬ width.any (s.width ≠ ·) = true := by
      cases width with
      | none => exact Bool.false_ne_true
      | some m =>
        rw [hwidth m rfl]
        simp
    rw [hstack]
    refine bind_eq_ok.mpr ⟨_, rfl, ?_⟩
    dsimp only
    rw [if_neg hagree]
    exact bind_eq_ok.mpr ⟨_, hstats, rfl⟩
  · rw [if_neg hincluded, if_neg hincluded, List.append_nil]
    rfl

/-- The vector of a consistent window. -/
theorem extractFeatures_eq (h : Consistent config rows n) :
    extractFeatures np rows config =
      .ok (config.channels.flatMap (channelPart np.arith config rows n)) := by
  unfold extractFeatures
  rw [if_neg (by simpa using h.1), amplitudeParts_eq h]
  refine bind_eq_ok.mpr ⟨_, rfl, bind_eq_ok.mpr ⟨_, phaseParts_eq h ?_ _, ?_⟩⟩
  · intro m hm
    cases hincluded : config.includeAmplitude <;> simp_all
  · rw [← channels_map, concatenate_eq (by simpa using channels_ne_nil config), List.flatMap_def]

/-! ## Other windows -/

/-- If the amplitude part succeeds, the amplitudes have one width. -/
private theorem uniform_of_amplitudeParts (hnp : np.RejectsRagged) (hne : rows ≠ [])
    {width : Option Nat} {parts : List (List α)}
    (h : amplitudeParts np rows config = .ok (width, parts)) (hincluded : config.includeAmplitude) :
    ∃ m, width = some m ∧ Uniform rows .amplitude m := by
  unfold amplitudeParts at h
  rw [if_pos hincluded] at h
  obtain ⟨s, hstack, h⟩ := bind_eq_ok.mp h
  obtain ⟨part, -, h⟩ := bind_eq_ok.mp h
  cases h
  exact ⟨s.width, rfl, uniform_of_stack hnp hne hstack⟩

/-- If the phase part succeeds, the phases have one width, and that of the amplitudes. -/
private theorem uniform_of_phaseParts (hnp : np.RejectsRagged) (hne : rows ≠ [])
    {width : Option Nat} {parts parts' : List (List α)}
    (h : phaseParts np rows config width parts = .ok parts') (hincluded : config.includePhase) :
    ∃ m, Uniform rows .phase m ∧ ∀ m', width = some m' → m = m' := by
  unfold phaseParts at h
  rw [if_pos hincluded] at h
  obtain ⟨s, hstack, h⟩ := bind_eq_ok.mp h
  refine ⟨s.width, uniform_of_stack hnp hne hstack, ?_⟩
  rintro m' rfl
  by_contra hdiffer
  have hany : (some m').any (s.width ≠ ·) = true := by simpa using hdiffer
  dsimp only at h
  rw [if_pos hany] at h
  cases h

/-- Only a consistent window has features. -/
theorem consistent_of_ok (hnp : np.RejectsRagged) {features : List α}
    (h : extractFeatures np rows config = .ok features) : ∃ n, Consistent config rows n := by
  unfold extractFeatures at h
  by_cases hempty : rows.isEmpty = true
  · rw [if_pos hempty] at h
    cases h
  rw [if_neg hempty] at h
  have hne : rows ≠ [] := by simpa using hempty
  obtain ⟨⟨width, parts⟩, hamplitude, h⟩ := bind_eq_ok.mp h
  obtain ⟨parts', hphase, -⟩ := bind_eq_ok.mp h
  -- the first channel fixes the width and the second has to agree
  cases hincluded : config.includeAmplitude with
  | true =>
    obtain ⟨n, hwidth, hrows⟩ := uniform_of_amplitudeParts hnp hne hamplitude hincluded
    refine ⟨n, hne, fun c hc => ?_⟩
    cases c with
    | amplitude => exact hrows
    | phase =>
      obtain ⟨m, hphaseRows, hagree⟩ :=
        uniform_of_phaseParts hnp hne hphase ((mem_channels_phase config).mp hc)
      rwa [hagree n hwidth] at hphaseRows
  | false =>
    have honly : config.includePhase = true := by
      simpa [hincluded] using config.atLeastOneChannel
    obtain ⟨n, hrows, -⟩ := uniform_of_phaseParts hnp hne hphase honly
    refine ⟨n, hne, fun c hc => ?_⟩
    cases c with
    | amplitude => simp [(mem_channels_amplitude config).mp hc] at hincluded
    | phase => exact hrows

/-- The amplitude part raises a `ValueError` only. -/
private theorem raisesOnly_amplitudeParts (hnp : np.RejectsRagged) (hne : rows ≠ []) :
    RaisesOnly FeatureError.IsValueError (amplitudeParts np rows config) := by
  unfold amplitudeParts
  by_cases hincluded : config.includeAmplitude = true
  · rw [if_pos hincluded]
    refine raisesOnly_bind.mpr ⟨raisesOnly_stack hnp hne _, fun s _ => ?_⟩
    exact raisesOnly_bind.mpr ⟨raisesOnly_concatenate _, fun part _ => raisesOnly_ok _⟩
  · rw [if_neg hincluded]
    exact raisesOnly_ok _

/-- The phase part raises a `ValueError` only. -/
private theorem raisesOnly_phaseParts (hnp : np.RejectsRagged) (hne : rows ≠ [])
    (width : Option Nat) (parts : List (List α)) :
    RaisesOnly FeatureError.IsValueError (phaseParts np rows config width parts) := by
  unfold phaseParts
  by_cases hincluded : config.includePhase = true
  · rw [if_pos hincluded]
    refine raisesOnly_bind.mpr ⟨raisesOnly_stack hnp hne _, fun s _ => ?_⟩
    dsimp only
    by_cases hdiffer : width.any (s.width ≠ ·) = true
    · rw [if_pos hdiffer]
      exact (raisesOnly_error _).mpr ⟨_, rfl⟩
    · rw [if_neg hdiffer]
      exact raisesOnly_bind.mpr ⟨raisesOnly_concatenate _, fun part _ => raisesOnly_ok _⟩
  · rw [if_neg hincluded]
    exact raisesOnly_ok _

/-- A window without features raises a `ValueError`. -/
theorem raisesOnly_extractFeatures (hnp : np.RejectsRagged) (rows : List (FeatureRow α))
    (config : FeatureConfig) :
    RaisesOnly FeatureError.IsValueError (extractFeatures np rows config) := by
  unfold extractFeatures
  by_cases hempty : rows.isEmpty = true
  · rw [if_pos hempty]
    exact (raisesOnly_error _).mpr ⟨_, rfl⟩
  · have hne : rows ≠ [] := by simpa using hempty
    rw [if_neg hempty]
    refine raisesOnly_bind.mpr ⟨raisesOnly_amplitudeParts hnp hne, fun amplitude _ => ?_⟩
    exact raisesOnly_bind.mpr
      ⟨raisesOnly_phaseParts hnp hne _ _, fun parts _ => raisesOnly_concatenate _⟩

/-! ## What is where -/

/-- A channel has one entry for each statistic of each column. -/
private theorem length_channelPart (ar : Arith α) (config : FeatureConfig)
    (rows : List (FeatureRow α))
    (n : Nat) (c : Channel) : (channelPart ar config rows n c).length = config.stats.length * n :=
  List.length_flatMap_of_length fun _ _ => (List.length_map _).trans List.length_range

/-- A statistic of a column, by its place. -/
private theorem getElem?_channelPart (ar : Arith α) (config : FeatureConfig)
    (rows : List (FeatureRow α)) (c : Channel) {k i : Nat} (hi : i < n) :
    (channelPart ar config rows n c)[k * n + i]? =
      config.stats[k]?.map fun s => ar.stat n s (channelColumn rows c i) := by
  unfold channelPart
  rw [List.getElem?_flatMap_of_length
    (fun _ _ => (List.length_map _).trans List.length_range) hi, Option.map_eq_bind]
  congr 1
  funext s
  rw [List.getElem?_map, List.getElem?_range hi]
  rfl

/-- The entries of the vector of a consistent window. -/
private theorem getElem?_channels (ar : Arith α) (config : FeatureConfig)
    (rows : List (FeatureRow α)) {c s i : Nat} (hs : s < config.stats.length) (hi : i < n) :
    (config.channels.flatMap (channelPart ar config rows n))[
        (c * config.stats.length + s) * n + i]? =
      config.channels[c]?.bind fun channel => config.stats[s]?.map fun stat =>
        ar.stat n stat (channelColumn rows channel i) := by
  have hindex : (c * config.stats.length + s) * n + i =
      c * (config.stats.length * n) + (s * n + i) := by
    rw [Nat.add_mul, Nat.mul_assoc, Nat.add_assoc]
  have hwithin : s * n + i < config.stats.length * n := by
    calc s * n + i < s * n + n := Nat.add_lt_add_left hi _
      _ = (s + 1) * n := (Nat.succ_mul s n).symm
      _ ≤ config.stats.length * n := Nat.mul_le_mul_right n hs
  rw [hindex, List.getElem?_flatMap_of_length
    (fun channel _ => length_channelPart ar config rows n channel) hwithin]
  congr 1
  funext channel
  exact getElem?_channelPart ar config rows channel hi

/-! ## Exact arithmetic -/

/-- The arithmetic of a field. -/
def Arith.exact (K : Type) [Field K] : Arith K where
  sum := fun _ xs => xs.sum
  sub := (· - ·)
  mul := (· * ·)
  div := (· / ·)
  ofNat := Nat.cast

section Exact

variable {K : Type} [Field K]

/-- A sum without rounding does not depend on the rows' order. -/
private theorem exact_sum_perm {xs ys : List K} (h : xs.Perm ys) (width : Nat) :
    (Arith.exact K).sum width xs = (Arith.exact K).sum width ys :=
  h.sum_eq

/-- A statistic is of the values in any order. -/
private theorem exact_stat_perm {xs ys : List K} (h : xs.Perm ys) (width : Nat) (s : Stat) :
    (Arith.exact K).stat width s xs = (Arith.exact K).stat width s ys := by
  have hmean : (Arith.exact K).mean width xs = (Arith.exact K).mean width ys := by
    unfold Arith.mean
    rw [exact_sum_perm h, h.length_eq]
  cases s with
  | mean => exact hmean
  | var =>
    show (Arith.exact K).var width xs = (Arith.exact K).var width ys
    unfold Arith.var
    dsimp only
    rw [hmean, exact_sum_perm ((h.map _).map _), h.length_eq]

/-- Nor do the statistics of a channel, which are made of such sums. -/
private theorem exact_channelPart_perm {rows rows' : List (FeatureRow K)} (h : rows.Perm rows')
    (config : FeatureConfig) (n : Nat) :
    channelPart (Arith.exact K) config rows n = channelPart (Arith.exact K) config rows' n := by
  funext c
  unfold channelPart
  congr 1
  funext s
  congr 1
  funext i
  exact exact_stat_perm (h.filterMap _) n s

end Exact

/-- Whether rows are consistent does not depend on their order. -/
theorem Consistent.perm {rows' : List (FeatureRow α)} (h : Consistent config rows n)
    (hrows : rows.Perm rows') : Consistent config rows' n := by
  refine ⟨fun hnil => h.1 (hnil ▸ hrows).eq_nil, fun c hc r hr => ?_⟩
  exact h.2 c hc r (hrows.mem_iff.mpr hr)

/-- There are features iff there are rows, each of one width in the channels that are included
    and the same in both; otherwise a `ValueError` is raised.  With `n` columns, statistic
    `s` of column `i` of channel `c` is at `(c * len(stats) + s) * n + i`, and in exact
    arithmetic the rows may come in any order. -/
theorem features_layout (np : Numpy α) (hnp : np.RejectsRagged) (config : FeatureConfig)
    (rows : List (FeatureRow α)) :
    ((∃ features, extractFeatures np rows config = .ok features) ↔
      ∃ n, Consistent config rows n) ∧
    ((¬ ∃ n, Consistent config rows n) →
      ∃ message, extractFeatures np rows config = .error (.valueError message)) ∧
    ∀ features, extractFeatures np rows config = .ok features →
      (∀ n, Consistent config rows n →
        features.length = config.stats.length * n * config.channels.length ∧
        ∀ c channel, config.channels[c]? = some channel →
          ∀ s stat, config.stats[s]? = some stat → ∀ i < n,
            features[(c * config.stats.length + s) * n + i]? =
              some (np.arith.stat n stat (channelColumn rows channel i))) ∧
      ∀ field : Field α, np.arith = @Arith.exact α field → ∀ rows', rows.Perm rows' →
        extractFeatures np rows' config = .ok features := by
  refine ⟨⟨fun ⟨features, h⟩ => consistent_of_ok hnp h, fun ⟨n, h⟩ => ⟨_, extractFeatures_eq h⟩⟩,
    ?_, fun features hfeatures => ⟨?_, ?_⟩⟩
  -- not one width: the error is `numpy`'s or the check's
  · intro hnone
    cases hresult : extractFeatures np rows config with
    | error e =>
      obtain ⟨message, rfl⟩ := raisesOnly_extractFeatures hnp rows config e hresult
      exact ⟨message, rfl⟩
    | ok features => exact absurd (consistent_of_ok hnp hresult) hnone
  -- both lists are written out per channel, per statistic, per subcarrier
  · intro n hn
    cases (extractFeatures_eq hn).symm.trans hfeatures
    constructor
    · rw [List.length_flatMap_of_length
        (fun channel _ => length_channelPart np.arith config rows n channel), Nat.mul_comm]
    · intro c channel hc s stat hs i hi
      have hlt : s < config.stats.length := (List.getElem?_eq_some_iff.mp hs).1
      rw [getElem?_channels np.arith config rows hlt hi, hc, hs]
      rfl
  -- a permutation of the rows has the same width and the same columns
  · intro field hexact rows' hrows
    obtain ⟨n, hn⟩ := consistent_of_ok hnp hfeatures
    rw [extractFeatures_eq hn] at hfeatures
    rw [extractFeatures_eq (hn.perm hrows), ← hfeatures, hexact, exact_channelPart_perm hrows]

/-- Two rows of two columns, the mean and the variance of both channels, in either order. -/
theorem features_layout_swapped :
    let np : Numpy ℚ := ⟨Arith.exact ℚ, fun _ => .error (.valueError
      "setting an array element with a sequence.")⟩
    let config : FeatureConfig :=
      ⟨1, [.mean, .var], true, true, by decide, by decide, by decide, by decide⟩
    let first : FeatureRow ℚ := ⟨[1, 2], [5, 7]⟩
    let second : FeatureRow ℚ := ⟨[3, 6], [5, 9]⟩
    extractFeatures np [first, second] config = .ok [2, 4, 1, 4, 5, 8, 0, 1] ∧
      extractFeatures np [second, first] config = .ok [2, 4, 1, 4, 5, 8, 0, 1] ∧
      ∀ i < 2, [2, 4, 1, 4, 5, 8, 0, 1][(1 * 2 + 0) * 2 + i]? =
        some (np.arith.mean 2 (channelColumn [first, second] .phase i)) := by
  intro np config first second
  have hnp : np.RejectsRagged := fun _ _ => ⟨_, rfl⟩
  have hfeatures : extractFeatures np [first, second] config = .ok [2, 4, 1, 4, 5, 8, 0, 1] := by
    decide +kernel
  have htwo : Consistent config [first, second] 2 := by
    refine ⟨List.cons_ne_nil _ _, fun c _ => ?_⟩
    unfold Uniform
    cases c <;> decide
  obtain ⟨-, -, h⟩ := features_layout np hnp config [first, second]
  obtain ⟨hlayout, hanyOrder⟩ := h _ hfeatures
  exact ⟨hfeatures, hanyOrder inferInstance rfl _ (List.Perm.swap _ _ _),
    (hlayout 2 htwo).2 1 .phase rfl 0 .mean rfl⟩

end Grimnir
