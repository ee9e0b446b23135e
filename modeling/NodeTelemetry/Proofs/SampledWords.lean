import Mathlib
import NodeTelemetry.Sampling

/-!
# One event in `N`

A draw below `N` accepts a word if the low half of its product with `N` lies in a window of
`N * 2 ^ z`, where `z` is the number of leading zeros of `N`.  The accepted words with one result
are those whose product lies in a window of that length, at a multiple of `2 ^ 32`
(`accepts_and_result_iff`).  A window of `N * k` holds just `k` multiples of `N`, wherever it starts
(`card_multiples_in_window`), so each result comes from `2 ^ z` words.

What the draws of a policy take from a stream of words is said by `Draws`: each takes the words up
to the first one that its rate accepts, and publishes exactly if that one is below `2 ^ z`.
-/

namespace NodeTelemetry

/-! ## Multiples in a window -/

/-- A window of `n * k` holds `k` multiples of `n`, wherever it starts. -/
lemma card_multiples_in_window {n k a m : ℕ} (hn : 0 < n) (hfit : a + n * k ≤ n * m) :
    ((Finset.range m).filter fun w => a ≤ w * n ∧ w * n < a + n * k).card = k := by
  have hfirst : ∀ w, a ≤ w * n ↔ a ⌈/⌉ n ≤ w := by
    intro w
    rw [ceilDiv_le_iff_le_mul hn, Nat.mul_comm]
  -- a multiple lies below the end of the window iff, `k` steps back, it lies below the start
  have hlast : ∀ w, w * n < a + n * k ↔ w < a ⌈/⌉ n + k := by
    intro w
    rcases Nat.lt_or_ge w k with hlt | hge
    · have hmul : w * n < n * k := by
        rw [Nat.mul_comm]
        exact Nat.mul_lt_mul_of_pos_left hlt hn
      constructor <;> intro <;> omega
    · obtain ⟨v, rfl⟩ := Nat.exists_eq_add_of_le hge
      have hstep := hfirst v
      have hmul : (k + v) * n = n * k + v * n := by ring
      rw [hmul]
      omega
  have hwindow : ((Finset.range m).filter fun w => a ≤ w * n ∧ w * n < a + n * k) =
      Finset.Ico (a ⌈/⌉ n) (a ⌈/⌉ n + k) := by
    ext w
    rw [Finset.mem_filter, Finset.mem_range, Finset.mem_Ico, hfirst, hlast]
    constructor
    · exact And.right
    · intro h
      refine ⟨?_, h⟩
      have hlt : w * n < n * m := ((hlast w).mpr h.2).trans_le hfit
      rw [Nat.mul_comm] at hlt
      exact Nat.lt_of_mul_lt_mul_left hlt
  rw [hwindow, Nat.card_Ico, Nat.add_sub_cancel_left]

/-- Words are counted by their numbers. -/
lemma ncard_words (p : ℕ → Prop) [DecidablePred p] :
    {w : UInt32 | p w.toNat}.ncard = ((Finset.range (2 ^ 32)).filter p).card := by
  have hinjective : Function.Injective UInt32.toNat := fun _ _ => UInt32.toNat_inj.mp
  rw [← Set.ncard_image_of_injective _ hinjective, ← Set.ncard_coe_finset]
  congr 1
  ext i
  rw [Finset.mem_coe, Finset.mem_filter, Finset.mem_range]
  constructor
  · rintro ⟨w, hw, rfl⟩
    exact ⟨w.toNat_lt, hw⟩
  · rintro ⟨hlt, hi⟩
    have htoNat : (UInt32.ofNat i).toNat = i := UInt32.toNat_ofNat_of_lt' hlt
    refine ⟨UInt32.ofNat i, ?_, htoNat⟩
    rwa [Set.mem_ofPred_eq, htoNat]

namespace WordStream

/-! ## Accepted words -/

/-- The number of zeros in front of the highest bit that is set in a word. -/
def leadingZeros (n : UInt32) : ℕ := n.toBitVec.clz.toNat

section Accepted

variable {n : UInt32}

/-- The highest bit that is set stands behind the leading zeros. -/
lemma leadingZeros_spec (hn : 2 ≤ n.toNat) :
    leadingZeros n ≤ 31 ∧ 2 ^ (31 - leadingZeros n) ≤ n.toNat ∧
      n.toNat < 2 ^ (32 - leadingZeros n) := by
  have hne : n.toBitVec ≠ 0#32 := by
    intro h
    rw [← UInt32.toNat_toBitVec, h] at hn
    exact absurd hn (by decide)
  refine ⟨?_, BitVec.two_pow_sub_clz_le_toNat_of_ne_zero (by norm_num) hne,
    BitVec.toNat_lt_two_pow_sub_clz⟩
  exact Nat.le_of_lt_succ (BitVec.lt_def.mp (BitVec.clz_lt_iff_ne_zero.mpr hne))

/-- Shifted left by its leading zeros, a word has its highest bit set and loses none. -/
lemma window_bounds (hn : 2 ≤ n.toNat) :
    2 ^ 31 ≤ n.toNat * 2 ^ leadingZeros n ∧ n.toNat * 2 ^ leadingZeros n < 2 ^ 32 := by
  obtain ⟨hle, hlow, hhigh⟩ := leadingZeros_spec hn
  constructor
  · calc 2 ^ 31 = 2 ^ (31 - leadingZeros n) * 2 ^ leadingZeros n := by
          rw [← pow_add, Nat.sub_add_cancel hle]
      _ ≤ n.toNat * 2 ^ leadingZeros n := Nat.mul_le_mul_right _ hlow
  · calc n.toNat * 2 ^ leadingZeros n < 2 ^ (32 - leadingZeros n) * 2 ^ leadingZeros n :=
          Nat.mul_lt_mul_of_pos_right hhigh (by positivity)
      _ = 2 ^ 32 := by rw [← pow_add, Nat.sub_add_cancel (hle.trans (by norm_num))]

/-- The zone ends just below the window. -/
lemma toNat_zone (hn : 2 ≤ n.toNat) : (zone n).toNat = n.toNat * 2 ^ leadingZeros n - 1 := by
  obtain ⟨hle, hlow, hhigh⟩ := leadingZeros_spec hn
  obtain ⟨hwindow, hfits⟩ := window_bounds hn
  have hlog : n.log2.toNat = 31 - leadingZeros n := by
    change n.toNat.log2 = _
    rw [Nat.log2_eq_iff (by omega)]
    refine ⟨hlow, ?_⟩
    rwa [← Nat.sub_add_comm hle]
  have hshift : (31 - n.log2).toNat = leadingZeros n := by
    have hlogLe : n.log2 ≤ 31 := by
      rw [UInt32.le_iff_toNat_le, hlog]
      exact Nat.sub_le _ _
    rw [UInt32.toNat_sub_of_le _ _ hlogLe, hlog]
    exact Nat.sub_sub_self hle
  have hshifted : (n <<< (31 - n.log2)).toNat = n.toNat * 2 ^ leadingZeros n := by
    rw [UInt32.toNat_shiftLeft, hshift, Nat.mod_eq_of_lt (by omega : leadingZeros n < 32),
      Nat.shiftLeft_eq, Nat.mod_eq_of_lt hfits]
  have hone : (1 : UInt32) ≤ n <<< (31 - n.log2) := by
    rw [UInt32.le_iff_toNat_le, hshifted]
    exact (by norm_num : 1 ≤ 2 ^ 31).trans hwindow
  rw [zone, UInt32.toNat_sub_of_le _ _ hone, hshifted]
  rfl

/-- A word is accepted if the low half of its product lies in the window. -/
lemma accepts_iff (hn : 2 ≤ n.toNat) (w : UInt32) :
    accepts n w = true ↔ w.toNat * n.toNat % 2 ^ 32 < n.toNat * 2 ^ leadingZeros n := by
  obtain ⟨hwindow, -⟩ := window_bounds hn
  rw [accepts, decide_eq_true_eq, toNat_zone hn]
  change w.toNat * n.toNat % 2 ^ 32 ≤ _ ↔ _
  omega

/-- The result of a word is the high half of its product. -/
lemma toNat_scaled (n w : UInt32) : (scaled n w).toNat = w.toNat * n.toNat / 2 ^ 32 := by
  have hle : w.toNat * n.toNat / 2 ^ 32 ≤ n.toNat :=
    Nat.div_le_of_le_mul (Nat.mul_le_mul_right _ w.toNat_lt.le)
  rw [scaled]
  exact UInt32.toNat_ofNat_of_lt' (hle.trans_lt n.toNat_lt)

/-- The accepted words with a given result are those whose product lies in the window at that
multiple of `2 ^ 32`. -/
lemma accepts_and_result_iff (hn : 2 ≤ n.toNat) (w : UInt32) (r : ℕ) :
    (accepts n w = true ∧ (scaled n w).toNat = r) ↔
      r * 2 ^ 32 ≤ w.toNat * n.toNat ∧
        w.toNat * n.toNat < r * 2 ^ 32 + n.toNat * 2 ^ leadingZeros n := by
  obtain ⟨-, hfits⟩ := window_bounds hn
  rw [accepts_iff hn, toNat_scaled]
  omega

/-- Each number below `n` is the result of `2 ^ z` accepted words, for the `z` leading zeros of
`n`. -/
lemma ncard_result (hn : 2 ≤ n.toNat) {r : ℕ} (hr : r < n.toNat) :
    {w : UInt32 | accepts n w = true ∧ (scaled n w).toNat = r}.ncard = 2 ^ leadingZeros n := by
  obtain ⟨-, hfits⟩ := window_bounds hn
  have hfit : r * 2 ^ 32 + n.toNat * 2 ^ leadingZeros n ≤ n.toNat * 2 ^ 32 := by
    calc r * 2 ^ 32 + n.toNat * 2 ^ leadingZeros n ≤ (r + 1) * 2 ^ 32 := by
          rw [Nat.add_mul, Nat.one_mul]
          exact Nat.add_le_add_left hfits.le _
      _ ≤ n.toNat * 2 ^ 32 := Nat.mul_le_mul_right _ hr
  simp only [accepts_and_result_iff hn]
  rw [ncard_words fun w => r * 2 ^ 32 ≤ w * n.toNat ∧
    w * n.toNat < r * 2 ^ 32 + n.toNat * 2 ^ leadingZeros n]
  exact card_multiples_in_window (by omega) hfit

/-- The accepted words are those of all results. -/
lemma ncard_accepted (hn : 2 ≤ n.toNat) :
    {w : UInt32 | accepts n w = true}.ncard = n.toNat * 2 ^ leadingZeros n := by
  let p : ℕ → Prop := fun w => w * n.toNat % 2 ^ 32 < n.toNat * 2 ^ leadingZeros n
  let result : ℕ → ℕ := fun w => w * n.toNat / 2 ^ 32
  have hresult : Set.MapsTo result ((Finset.range (2 ^ 32)).filter p) (Finset.range n.toNat) := by
    intro w hw
    have hlt := Finset.mem_range.mp (Finset.mem_filter.mp hw).1
    exact Finset.mem_coe.mpr (Finset.mem_range.mpr
      (Nat.div_lt_of_lt_mul (Nat.mul_lt_mul_of_pos_right hlt (by omega))))
  have heach : ∀ r ∈ Finset.range n.toNat,
      (((Finset.range (2 ^ 32)).filter p).filter fun w => result w = r).card =
        2 ^ leadingZeros n := by
    intro r hr
    rw [Finset.filter_filter, ← ncard_words, ← ncard_result hn (Finset.mem_range.mp hr)]
    simp only [accepts_iff hn, toNat_scaled, p, result]
  simp only [accepts_iff hn]
  rw [ncard_words p, Finset.card_eq_sum_card_fiberwise hresult, Finset.sum_congr rfl heach,
    Finset.sum_const, Finset.card_range, smul_eq_mul]

/-- An accepted word gives zero exactly if it is below `2 ^ z`, for the `z` leading zeros of
`n`. -/
lemma scaled_eq_zero_iff (hn : 2 ≤ n.toNat) {w : UInt32} (hw : accepts n w = true) :
    scaled n w = 0 ↔ w.toNat < 2 ^ leadingZeros n := by
  have hresult := accepts_and_result_iff hn w 0
  rw [← UInt32.toNat_inj, UInt32.toNat_zero]
  rw [Nat.zero_mul, Nat.zero_add, Nat.mul_comm w.toNat,
    Nat.mul_lt_mul_left (Nat.lt_of_lt_of_le Nat.two_pos hn)] at hresult
  constructor
  · intro hzero
    exact (hresult.mp ⟨hw, hzero⟩).2
  · intro hlt
    exact (hresult.mpr ⟨Nat.zero_le _, hlt⟩).2

/-- Every number below `n` is the result of equally many words: the words that count for `n`, with
`z` leading zeros, their number, which is at least half of all, and the number of those with one
result. -/
structure IsUniform (n : UInt32) : Prop where
  accepts_iff : ∀ w, accepts n w = true ↔
    w.toNat * n.toNat % 2 ^ 32 ≤ (n.toNat * 2 ^ leadingZeros n - 1) % 2 ^ 32
  result : ∀ w, accepts n w = true →
    (scaled n w).toNat = w.toNat * n.toNat / 2 ^ 32 ∧ scaled n w < n
  ncard_accepted : {w : UInt32 | accepts n w = true}.ncard = n.toNat * 2 ^ leadingZeros n
  half_le : 2 ^ 31 ≤ {w : UInt32 | accepts n w = true}.ncard
  ncard_result : ∀ r < n,
    {w : UInt32 | accepts n w = true ∧ scaled n w = r}.ncard = 2 ^ leadingZeros n
  /-- One in `n` of the accepted words gives zero. -/
  ncard_zero : n.toNat * {w : UInt32 | accepts n w = true ∧ scaled n w = 0}.ncard =
    {w : UInt32 | accepts n w = true}.ncard
  zero_iff : ∀ w, accepts n w = true → (scaled n w = 0 ↔ w.toNat < 2 ^ leadingZeros n)

/-- The multiplication with rejection is uniform. -/
lemma isUniform_of_two_le (h : 2 ≤ n) : IsUniform n := by
  have hn : 2 ≤ n.toNat := UInt32.le_iff_toNat_le.mp h
  obtain ⟨hwindow, hfits⟩ := window_bounds hn
  have hresults : ∀ r < n,
      {w : UInt32 | accepts n w = true ∧ scaled n w = r}.ncard = 2 ^ leadingZeros n := by
    intro r hr
    simp only [← WordStream.ncard_result hn (UInt32.lt_iff_toNat_lt.mp hr), UInt32.toNat_inj]
  constructor
  case accepts_iff =>
    intro w
    rw [WordStream.accepts_iff hn]
    omega
  case result =>
    intro w _
    refine ⟨toNat_scaled n w, ?_⟩
    rw [UInt32.lt_iff_toNat_lt, toNat_scaled]
    exact Nat.div_lt_of_lt_mul (Nat.mul_lt_mul_of_pos_right w.toNat_lt (by omega))
  case ncard_accepted => exact WordStream.ncard_accepted hn
  case half_le =>
    rw [WordStream.ncard_accepted hn]
    exact hwindow
  case ncard_result => exact hresults
  case ncard_zero =>
    rw [hresults 0 (UInt32.lt_iff_toNat_lt.mpr (by rw [UInt32.toNat_zero]; omega)),
      WordStream.ncard_accepted hn]
  case zero_iff =>
    intro w hw
    exact scaled_eq_zero_iff hn hw

end Accepted

/-! ## Draws from a stream -/

/-- A draw takes the words up to the first accepted one. -/
lemma drawFrom_spec (n : UInt32) (words : List UInt32) :
    ∃ i, (∀ j < i, accepts n (words.getD j 0) = false) ∧ accepts n (words.getD i 0) = true ∧
      drawFrom n words = (scaled n (words.getD i 0), words.drop (i + 1), i + 1) := by
  induction words with
  | nil => exact ⟨0, by simp [drawFrom]⟩
  | cons w rest ih =>
    cases hw : accepts n w with
    | true => exact ⟨0, by simp [drawFrom, hw]⟩
    | false =>
      obtain ⟨i, hrejected, haccepted, hdraw⟩ := ih
      refine ⟨i + 1, ?_, haccepted, ?_⟩
      · intro j hj
        cases j with
        | zero => exact hw
        | succ j => exact hrejected j (Nat.lt_of_succ_lt_succ hj)
      · simp only [drawFrom, hw, Bool.false_eq_true, if_false, hdraw, List.getD_cons_succ,
          List.drop_succ_cons]

end WordStream

namespace SamplingPolicy

open WordStream

/-- One draw for a rate from a sequence of words: where it starts and stops, and whether it
publishes. -/
inductive Draw (word : ℕ → UInt32) (start : ℕ) : UInt32 → ℕ → Bool → Prop
  /-- With rate 0 nothing is published, and no word is taken. -/
  | never : Draw word start 0 start false
  /-- With rate 1 everything is published, and no word is taken. -/
  | always : Draw word start 1 start true
  /-- Otherwise the words up to the first accepted one are taken, and that one decides. -/
  | sampled {n : UInt32} {i : ℕ} (hn : 2 ≤ n) (hstart : start ≤ i)
    (hrejected : ∀ j, start ≤ j → j < i → accepts n (word j) = false)
    (haccepted : accepts n (word i) = true) :
    Draw word start n (i + 1) (decide ((word i).toNat < 2 ^ leadingZeros n))

/-- Draws for events of some kinds, one after the other: each starts where the one before it
stopped. -/
inductive Draws (p : SamplingPolicy) (word : ℕ → UInt32) :
    ℕ → List EventType → List Bool → ℕ → Prop
  | nil {start : ℕ} : Draws p word start [] [] start
  | cons {start mid stop : ℕ} {kind : EventType} {kinds : List EventType} {published : Bool}
    {more : List Bool} (hdraw : Draw word start (p.oneIn kind) mid published)
    (hmore : Draws p word mid kinds more stop) :
    Draws p word start (kind :: kinds) (published :: more) stop

/-- Decides for events of some kinds in turn whether they are published. -/
def publishAll (p : SamplingPolicy) : List EventType → WordStream → List Bool × WordStream
  | [], words => ([], words)
  | kind :: kinds, words =>
    let (published, words) := p.shouldPublish kind words
    let (more, words) := publishAll p kinds words
    (published :: more, words)

/-- What is left of a list of words after some were taken. -/
def LeftOf (words : List UInt32) (s : WordStream) : Prop := s.pending = words.drop s.taken

/-- A decision is a draw at the words that are left. -/
lemma draw_shouldPublish (p : SamplingPolicy) (kind : EventType) {words : List UInt32}
    {s : WordStream} (hs : LeftOf words s) :
    Draw (fun i => words.getD i 0) s.taken (p.oneIn kind) (p.shouldPublish kind s).2.taken
        (p.shouldPublish kind s).1 ∧
      LeftOf words (p.shouldPublish kind s).2 := by
  by_cases hzero : p.oneIn kind = 0
  · rw [shouldPublish_of_zero hzero, hzero]
    exact ⟨.never, hs⟩
  by_cases hone : p.oneIn kind = 1
  · rw [shouldPublish_of_one hone, hone]
    exact ⟨.always, hs⟩
  have htwo : 2 ≤ p.oneIn kind := by
    rw [UInt32.le_iff_toNat_le]
    have hne : ∀ k : UInt32, p.oneIn kind ≠ k → (p.oneIn kind).toNat ≠ k.toNat :=
      fun k => mt UInt32.toNat_inj.mp
    have hne₀ := hne 0 hzero
    have hne₁ := hne 1 hone
    simp only [UInt32.reduceToNat] at hne₀ hne₁ ⊢
    omega
  obtain ⟨i, hrejected, haccepted, hdraw⟩ := drawFrom_spec (p.oneIn kind) s.pending
  have hword : ∀ j, s.pending.getD j 0 = words.getD (s.taken + j) 0 := by
    intro j
    rw [List.getD_eq_getElem?_getD, hs, List.getElem?_drop, ← List.getD_eq_getElem?_getD]
  simp only [hword] at hrejected haccepted hdraw
  have hbelow : p.shouldPublish kind s =
      (scaled (p.oneIn kind) (words.getD (s.taken + i) 0) == 0,
        ⟨s.pending.drop (i + 1), s.taken + (i + 1)⟩) := by
    simp only [shouldPublish, hzero, hone, if_false, below, hdraw]
  have hpublished : (scaled (p.oneIn kind) (words.getD (s.taken + i) 0) == 0) =
      decide ((words.getD (s.taken + i) 0).toNat < 2 ^ leadingZeros (p.oneIn kind)) := by
    rw [Bool.eq_iff_iff, beq_iff_eq, decide_eq_true_eq]
    exact scaled_eq_zero_iff (UInt32.le_iff_toNat_le.mp htwo) haccepted
  rw [hbelow, hpublished]
  constructor
  · refine .sampled htwo (Nat.le_add_right _ _) ?_ haccepted
    intro j hstart hj
    obtain ⟨k, rfl⟩ := Nat.exists_eq_add_of_le hstart
    exact hrejected k (Nat.lt_of_add_lt_add_left hj)
  · change s.pending.drop (i + 1) = words.drop (s.taken + (i + 1))
    rw [hs, List.drop_drop]

/-- Decisions in turn are draws in turn. -/
lemma draws_publishAll (p : SamplingPolicy) (kinds : List EventType) {words : List UInt32}
    {s : WordStream} (hs : LeftOf words s) :
    Draws p (fun i => words.getD i 0) s.taken kinds (p.publishAll kinds s).1
        (p.publishAll kinds s).2.taken ∧
      LeftOf words (p.publishAll kinds s).2 := by
  induction kinds generalizing s with
  | nil => exact ⟨.nil, hs⟩
  | cons kind kinds ih =>
    obtain ⟨hdraw, hleft⟩ := p.draw_shouldPublish kind hs
    obtain ⟨hdraws, hrest⟩ := ih hleft
    exact ⟨.cons hdraw hdraws, hrest⟩

/-- **Sampling is unbiased and takes no more words than it needs.**  For every rate from two on the
accepted words give each number below it equally often.  Draws of any policy, from any words
that are followed by zeros, take the words up to the first accepted one each, and leave the rest. -/
theorem isUniform_and_draws_publishAll :
    (∀ n : UInt32, 2 ≤ n → IsUniform n) ∧
      ∀ (p : SamplingPolicy) (kinds : List EventType) (words : List UInt32),
        let drawn := p.publishAll kinds (.ofList words)
        Draws p (fun i => words.getD i 0) 0 kinds drawn.1 drawn.2.taken ∧
          drawn.2.pending = words.drop drawn.2.taken := by
  constructor
  · intro n hn
    exact isUniform_of_two_le hn
  · intro p kinds words
    exact p.draws_publishAll (s := .ofList words) kinds rfl

/-- One in three: three quarters of the words are accepted, a third of them for each number. -/
theorem isUniform_three :
    2 ≤ (3 : UInt32) ∧ {w : UInt32 | accepts 3 w = true}.ncard = 0xc0000000 ∧
      {w : UInt32 | accepts 3 w = true ∧ scaled 3 w = 2}.ncard = 0x40000000 := by
  have htwo : 2 ≤ (3 : UInt32) := by decide
  have huniform := isUniform_and_draws_publishAll.1 3 htwo
  have hzeros : leadingZeros 3 = 30 := by decide
  refine ⟨htwo, ?_, ?_⟩
  · rw [huniform.ncard_accepted, hzeros]
    rfl
  · rw [huniform.ncard_result 2 (by decide), hzeros]
    rfl

/-- A third is below the least word that gives one; a word just below a third of all is
rejected. -/
example : (⟨3, 1, 0, 7⟩ : SamplingPolicy).publishAll [.rtt, .retrans, .drop, .rtt, .runqlat]
    (.ofList [0x55555555, 0x3fffffff, 0x55555556, 9]) =
      ([true, true, false, false, true], ⟨[], 4⟩) := by
  decide

end SamplingPolicy

end NodeTelemetry
