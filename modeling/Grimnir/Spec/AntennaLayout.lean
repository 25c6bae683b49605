import Grimnir.Native.Muninn

/-!
# Which samples an entry of the queue holds

The driver's buffer holds one block of samples for each antenna.  `csi_callback` copies them
with one index for source and destination, so the blocks of the entry are those of the buffer
only while no block is longer than the entry has room for.

## Key results

- `fillChecked_eq`: no access of the copy loop is out of bounds
- `fill_getElem?`: entry `i` is computed from pair `i`
- `layout_iff`: the second antenna's block is where the entry says it is exactly when a block
  has at most `MAX_SUBCARRIERS` samples
- `second_block_shifted`: 612 bytes of two antennas
-/

namespace Grimnir.Muninn

/-- The `j`-th (imaginary, real) pair of the buffer, if it lies below `len`. -/
def WifiCsiInfo.pair? (info : WifiCsiInfo) (j : Nat) : Option (Int8 × Int8) := do
  let imag ← info.buf.1[j * 2]?
  let real ← info.buf.1[j * 2 + 1]?
  return (imag, real)

/-- The copy loop with every access checked: `none` is one outside the buffer or the array. -/
def WifiCsiInfo.fillChecked (info : WifiCsiInfo) (value : Int8 → Int8 → UInt32) :
    Option (List UInt32) :=
  let total := info.antennas * info.subcarriers
  ((List.range total).takeWhile fun i => i * 2 + 1 < info.len.toNat).foldlM
    (fun array i => do
      let (imag, real) ← info.pair? i
      if i < array.length then some (array.set i (value imag real)) else none)
    (List.replicate maxValues 0)

/-- `n`: the samples of one antenna in the buffer. -/
def WifiCsiInfo.samples (info : WifiCsiInfo) : Nat := info.len.toNat / 2 / info.antennas

/-- Sample `k` of antenna `a` in the entry is computed from sample `k` of that antenna's block
    of the buffer. -/
def LaidOut (libm : Libm) (info : WifiCsiInfo) (entry : CsiEntry) : Prop :=
  ∀ a k : Nat, a < entry.antennaCount.toNat → k < entry.subcarrierCount.toNat →
    ∃ imag real, info.pair? (a * info.samples + k) = some (imag, real) ∧
      entry.amplitude.1[a * entry.subcarrierCount.toNat + k]? = some (libm.magnitude imag real) ∧
      entry.phase.1[a * entry.subcarrierCount.toNat + k]? = some (libm.angle imag real)

/-- The copy loop stays inside the buffer and the arrays. -/
def InBounds (info : WifiCsiInfo) : Prop :=
  ∀ value, info.fillChecked value = some (info.fill value).1

/-! ## The counts -/

variable (info : WifiCsiInfo)

private theorem WifiCsiInfo.antennas_eq_reported : info.antennas = info.reportedAntennas := by
  unfold antennas reportedAntennas
  cases info.secondaryChannel <;> rfl

private theorem WifiCsiInfo.subcarriers_eq :
    info.subcarriers = min info.samples maxSubcarriers := by
  simp only [subcarriers, samples, antennas_eq_reported]
  split <;> omega

private theorem WifiCsiInfo.total_le : info.antennas * info.subcarriers * 2 ≤ info.len.toNat := by
  have hblocks : info.antennas * info.samples ≤ info.len.toNat / 2 := Nat.mul_div_le _ _
  have hclamped : info.antennas * info.subcarriers ≤ info.antennas * info.samples := by
    rw [info.subcarriers_eq]
    exact Nat.mul_le_mul_left _ (Nat.min_le_left _ _)
  omega

private theorem WifiCsiInfo.total_le_maxValues : info.antennas * info.subcarriers ≤ maxValues := by
  have hantennas : info.antennas ≤ maxAntennas := by
    cases info.antennas_eq with
    | inl hone => rw [hone]; decide
    | inr htwo => rw [htwo]; decide
  exact Nat.mul_le_mul hantennas info.subcarriers_le

/-- The second test of the loop never ends it. -/
private theorem WifiCsiInfo.loop_eq :
    ((List.range (info.antennas * info.subcarriers)).takeWhile
      fun i => i * 2 + 1 < info.len.toNat) = List.range (info.antennas * info.subcarriers) := by
  apply List.takeWhile_eq_self_iff.mpr
  intro i hi
  have hlt := List.mem_range.mp hi
  have htotal := info.total_le
  simp only [decide_eq_true_eq]
  omega

/-! ## The loop -/

private theorem WifiCsiInfo.pair?_eq {j : Nat} (h : j * 2 + 1 < info.len.toNat) :
    info.pair? j =
      some (info.buf.1.getD (j * 2) 0, info.buf.1.getD (j * 2 + 1) 0) := by
  have himag : j * 2 < info.buf.1.length := by
    rw [info.buf.2]
    omega
  have hreal : j * 2 + 1 < info.buf.1.length := by rwa [info.buf.2]
  simp [pair?, himag, hreal]

/-- What a loop that sets one entry after the other leaves. -/
private theorem getElem?_foldl_set (f : Nat → UInt32) (array : List UInt32) (n i : Nat) :
    ((List.range n).foldl (fun a i => a.set i (f i)) array)[i]? =
      if i < n then array[i]?.map fun _ => f i else array[i]? := by
  induction n with
  | zero => simp
  | succ n ih =>
    rw [List.range_succ, List.foldl_append, List.foldl_cons, List.foldl_nil, List.getElem?_set']
    by_cases hlast : n = i
    · subst hlast
      simp only [if_true, ih, Nat.lt_irrefl, if_false, Nat.lt_succ_self]
      rfl
    · rw [if_neg hlast, ih]
      have hsucc : i < n + 1 ↔ i < n := by omega
      simp only [hsucc]

/-- What entry `i` is computed from. -/
def WifiCsiInfo.valueAt (value : Int8 → Int8 → UInt32) (i : Nat) : UInt32 :=
  value (info.buf.1.getD (i * 2) 0) (info.buf.1.getD (i * 2 + 1) 0)

private theorem WifiCsiInfo.fill_val (value : Int8 → Int8 → UInt32) :
    (info.fill value).1 = (List.range (info.antennas * info.subcarriers)).foldl
      (fun a i => a.set i (info.valueAt value i)) (List.replicate maxValues 0) := by
  have hval : ∀ (is : List Nat) (array : Struct.Sized UInt32 maxValues),
      (is.foldl (fun array i =>
        (⟨array.1.set i (info.valueAt value i), by rw [List.length_set, array.2]⟩ :
          Struct.Sized UInt32 maxValues)) array).1 =
        is.foldl (fun a i => a.set i (info.valueAt value i)) array.1 := by
    intro is
    induction is with
    | nil => exact fun _ => rfl
    | cons i is ih => exact fun _ => ih _
  rw [← info.loop_eq]
  exact hval _ _

/-- Entry `i` is computed from pair `i`. -/
theorem WifiCsiInfo.fill_getElem? (value : Int8 → Int8 → UInt32) {i : Nat}
    (hi : i < info.antennas * info.subcarriers) :
    (info.fill value).1[i]? = some (info.valueAt value i) := by
  have hfits := info.total_le_maxValues
  rw [fill_val, getElem?_foldl_set, if_pos hi, List.getElem?_replicate, if_pos (by omega)]
  rfl

/-- No access of the copy loop is out of bounds. -/
theorem WifiCsiInfo.fillChecked_eq (value : Int8 → Int8 → UInt32) :
    info.fillChecked value = some (info.fill value).1 := by
  -- the checked loop writes the same array as long as every index is in range
  have hchecked : ∀ (is : List Nat) (array : List UInt32),
      (∀ i ∈ is, i * 2 + 1 < info.len.toNat ∧ i < array.length) →
      is.foldlM (fun array i => do
        let (imag, real) ← info.pair? i
        if i < array.length then some (array.set i (value imag real)) else none) array =
      some (is.foldl (fun a i => a.set i (info.valueAt value i)) array) := by
    intro is
    induction is with
    | nil => exact fun _ _ => rfl
    | cons i is ih =>
      intro array hall
      obtain ⟨hread, hwrite⟩ := hall i List.mem_cons_self
      rw [List.foldlM_cons, info.pair?_eq hread]
      show ((if i < array.length then some (array.set i (info.valueAt value i)) else none) >>=
        _) = _
      rw [if_pos hwrite]
      apply ih
      intro j hj
      rw [List.length_set]
      exact hall j (List.mem_cons_of_mem i hj)
  have htotal := info.total_le
  have hfits := info.total_le_maxValues
  rw [fillChecked, info.loop_eq, fill_val]
  apply hchecked
  intro i hi
  have hlt := List.mem_range.mp hi
  rw [List.length_replicate]
  omega

/-! ## The blocks -/

variable {info} {libm : Libm} {huginnMac : Struct.Bytes 6} {now : Nat} {entry : CsiEntry}

/-- What a captured entry holds. -/
private theorem csiCallback_eq (h : csiCallback libm huginnMac info now = some entry) :
    entry.antennaCount.toNat = info.antennas ∧ entry.subcarrierCount.toNat = info.subcarriers ∧
      entry.amplitude = info.fill libm.magnitude ∧ entry.phase = info.fill libm.angle := by
  have hantennas : info.antennas < 2 ^ 16 := by
    cases info.antennas_eq with
    | inl hone => omega
    | inr htwo => omega
  have hsubcarriers : info.subcarriers < 2 ^ 16 :=
    lt_of_le_of_lt info.subcarriers_le (by decide)
  unfold csiCallback at h
  split at h
  · cases h
  · split at h
    · cases h
    · cases h
      refine ⟨?_, ?_, rfl, rfl⟩
      · rw [UInt16.toNat_ofNat', Nat.mod_eq_of_lt hantennas]
      · rw [UInt16.toNat_ofNat', Nat.mod_eq_of_lt hsubcarriers]

/-- While the blocks have room, source and destination have one stride. -/
private theorem laidOut_of_le (h : csiCallback libm huginnMac info now = some entry)
    (hroom : info.antennas = 1 ∨ info.samples ≤ maxSubcarriers) : LaidOut libm info entry := by
  obtain ⟨hantennas, hsubcarriers, hamplitude, hphase⟩ := csiCallback_eq h
  intro a k ha hk
  rw [hantennas] at ha
  rw [hsubcarriers] at hk ⊢
  have hclamp := info.subcarriers_eq
  have hstride : a * info.samples = a * info.subcarriers := by
    cases hroom with
    | inl hone =>
      -- the only block starts at 0, whatever the stride
      have hfirst : a = 0 := by omega
      simp [hfirst]
    | inr hle =>
      rw [hclamp, Nat.min_eq_left hle]
  have hindex : a * info.subcarriers + k < info.antennas * info.subcarriers := by
    have hblock : (a + 1) * info.subcarriers ≤ info.antennas * info.subcarriers :=
      Nat.mul_le_mul_right _ ha
    rw [Nat.succ_mul] at hblock
    omega
  -- the pair's two bytes lie within `len`, and its word within the entry
  have htotal := info.total_le
  rw [hstride]
  refine ⟨_, _, info.pair?_eq (by omega), ?_, ?_⟩
  · rw [hamplitude]
    exact info.fill_getElem? libm.magnitude hindex
  · rw [hphase]
    exact info.fill_getElem? libm.angle hindex

/-! ## A block longer than its room -/

/-- A frame of Huginn whose only sample that is not zero is number 128. -/
def probeFrame (huginnMac : Struct.Bytes 6) (len : UInt16) (secondary : SecondChannel) :
    WifiCsiInfo where
  mac := huginnMac
  rssi := -50
  noiseFloor := -95
  channel := 6
  cwb := 1
  secondaryChannel := secondary
  len := len
  buf := ⟨(List.replicate len.toNat 0).set (maxSubcarriers * 2) 1, by
    rw [List.length_set, List.length_replicate]⟩

/-- A library that tells the sample from the others. -/
def probeLibm : Libm where
  magnitude imag _ := if imag = 1 then 1 else 0
  angle imag _ := if imag = 1 then 1 else 0

/-- The second block of the entry starts with sample 128 of the buffer, which belongs to the
    first antenna. -/
private theorem not_laidOut_probeFrame {len : UInt16} {secondary : SecondChannel}
    (hsecond : secondary ≠ .none) (hlong : maxSubcarriers < len.toNat / 2 / 2)
    (h : csiCallback probeLibm huginnMac (probeFrame huginnMac len secondary) now =
      some entry) :
    ¬LaidOut probeLibm (probeFrame huginnMac len secondary) entry := by
  obtain ⟨hantennas, hsubcarriers, hamplitude, -⟩ := csiCallback_eq h
  have htwo : (probeFrame huginnMac len secondary).antennas = 2 := by
    rw [WifiCsiInfo.antennas_eq_reported]
    exact if_neg hsecond
  have hsamples : (probeFrame huginnMac len secondary).samples = len.toNat / 2 / 2 := by
    rw [WifiCsiInfo.samples, htwo]
    rfl
  have hclamped : (probeFrame huginnMac len secondary).subcarriers = maxSubcarriers := by
    rw [WifiCsiInfo.subcarriers_eq, hsamples]
    exact Nat.min_eq_right (le_of_lt hlong)
  intro hlaid
  -- block 1, sample 0 is the place where the stride went wrong
  obtain ⟨imag, real, hpair, hmagnitude, -⟩ := hlaid 1 0 (by omega)
    (by rw [hsubcarriers, hclamped]; decide)
  rw [hsamples, Nat.one_mul, Nat.add_zero] at hpair
  rw [hsubcarriers, hclamped, Nat.one_mul, Nat.add_zero, hamplitude] at hmagnitude
  -- what the entry holds there is not zero, what it should hold is
  have hentry := (probeFrame huginnMac len secondary).fill_getElem? probeLibm.magnitude
    (i := maxSubcarriers) (by rw [htwo, hclamped]; decide)
  have hwritten : (probeFrame huginnMac len secondary).valueAt probeLibm.magnitude
      maxSubcarriers = 1 := by
    have hin : maxSubcarriers * 2 < len.toNat := by omega
    simp [WifiCsiInfo.valueAt, probeFrame, probeLibm, hin]
  have hshould : imag = 0 := by
    rw [WifiCsiInfo.pair?_eq _ (show len.toNat / 2 / 2 * 2 + 1 < len.toNat by omega)] at hpair
    have himag : (probeFrame huginnMac len secondary).buf.1.getD (len.toNat / 2 / 2 * 2) 0 =
        imag := congrArg Prod.fst (Option.some.inj hpair)
    rw [← himag]
    have hother : maxSubcarriers * 2 ≠ len.toNat / 2 / 2 * 2 := by omega
    simp only [probeFrame, List.getD_eq_getElem?_getD, List.getElem?_set_ne hother,
      List.getElem?_replicate]
    split <;> rfl
  rw [hentry, hwritten, hshould] at hmagnitude
  have hone : (1 : UInt32) = 0 := Option.some.inj hmagnitude
  exact absurd hone (by decide)

private theorem csiCallback_probeFrame {len : UInt16} (hlen : len ≠ 0) (secondary : SecondChannel)
    (libm : Libm) :
    ∃ entry, csiCallback libm huginnMac (probeFrame huginnMac len secondary) now =
      some entry := by
  unfold csiCallback
  rw [if_neg (show (probeFrame huginnMac len secondary).len ≠ 0 from hlen)]
  exact ⟨_, if_neg (fun hne => hne rfl)⟩

/-- Every access is in bounds; the samples of an entry are those of their antennas exactly
    when there is one antenna or a block has at most `MAX_SUBCARRIERS` samples. -/
theorem layout_iff (huginnMac : Struct.Bytes 6) (len : UInt16) (secondary : SecondChannel) :
    (∀ (libm : Libm) (info : WifiCsiInfo) (now : Nat) (entry : CsiEntry), info.len = len →
      info.secondaryChannel = secondary → csiCallback libm huginnMac info now = some entry →
      InBounds info ∧ LaidOut libm info entry) ↔
    secondary = .none ∨ len.toNat / 2 / 2 ≤ maxSubcarriers := by
  constructor
  · intro h
    by_contra hcontra
    obtain ⟨hsecond, hlong⟩ := not_or.mp hcontra
    -- an empty frame is not captured, but its blocks are not long either
    have hlen : len ≠ 0 := by
      rintro rfl
      exact hlong (by decide)
    obtain ⟨entry, hentry⟩ := @csiCallback_probeFrame huginnMac 0 len hlen secondary probeLibm
    exact not_laidOut_probeFrame hsecond (by omega) hentry
      (h probeLibm _ 0 entry rfl rfl hentry).2
  · rintro hroom libm info now entry rfl rfl hentry
    -- with one antenna there is one block, else the samples fit
    refine ⟨info.fillChecked_eq, laidOut_of_le hentry ?_⟩
    cases info.antennas_eq with
    | inl hone => exact .inl hone
    | inr htwo =>
      right
      rw [WifiCsiInfo.samples, htwo]
      apply hroom.resolve_left
      intro hnone
      rw [WifiCsiInfo.antennas_eq_reported, WifiCsiInfo.reportedAntennas, if_pos hnone] at htwo
      cases htwo

/-- 612 bytes of two antennas: 153 samples in each block of the buffer, 128 in the entry's. -/
theorem second_block_shifted :
    ¬∀ (libm : Libm) (huginnMac : Struct.Bytes 6) (info : WifiCsiInfo) (now : Nat)
      (entry : CsiEntry), csiCallback libm huginnMac info now = some entry →
      InBounds info ∧ LaidOut libm info entry := by
  intro h
  obtain ⟨entry, hentry⟩ := @csiCallback_probeFrame (.replicate 6 0x24) 0 612 (by decide) .above
    probeLibm
  exact not_laidOut_probeFrame (by decide) (by decide) hentry (h probeLibm _ _ 0 entry hentry).2

end Grimnir.Muninn
