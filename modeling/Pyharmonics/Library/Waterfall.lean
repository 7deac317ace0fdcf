import Mathlib.Tactic

/-! An amount taken from buckets in order, each emptied before the next is touched. -/
namespace Waterfall

variable {K : Type*} [AddCommGroup K] [LinearOrder K]

/-- What a bucket gives. -/
def taken (available amount : K) : K := if amount ≤ 0 then 0 else min available amount

/-- What each bucket gives. -/
def drain : K → List K → List K
  | _, [] => []
  | t, b :: bs => taken b t :: drain (t - taken b t) bs

/-- What is left in each bucket. -/
def left : K → List K → List K
  | _, [] => []
  | t, b :: bs => (b - taken b t) :: left (t - taken b t) bs

variable {t u b : K} {bs pre post : List K}

@[simp] theorem length_drain : (drain t bs).length = bs.length := by
  induction bs generalizing t with
  | nil => rfl
  | cons b bs ih => exact congrArg (· + 1) ih

@[simp] theorem length_left : (left t bs).length = bs.length := by
  induction bs generalizing t with
  | nil => rfl
  | cons b bs ih => exact congrArg (· + 1) ih

/-- Nothing is lost. -/
theorem drain_add_left : (drain t bs).zipWith (· + ·) (left t bs) = bs := by
  induction bs generalizing t with
  | nil => rfl
  | cons b bs ih => rw [drain, left, List.zipWith_cons_cons, ih, add_sub_cancel]

theorem drain_append :
    drain t (pre ++ post) = drain t pre ++ drain (t - (drain t pre).sum) post := by
  induction pre generalizing t with
  | nil => rw [drain, List.sum_nil, sub_zero, List.nil_append, List.nil_append]
  | cons b pre ih =>
    rw [List.cons_append, drain, ih, drain, List.sum_cons, List.cons_append, sub_sub]

theorem left_append :
    left t (pre ++ post) = left t pre ++ left (t - (drain t pre).sum) post := by
  induction pre generalizing t with
  | nil => rw [drain, left, List.sum_nil, sub_zero, List.nil_append, List.nil_append]
  | cons b pre ih =>
    rw [List.cons_append, left, ih, drain, left, List.sum_cons, List.cons_append, sub_sub]

theorem taken_eq (hb : 0 ≤ b) (ht : 0 ≤ t) : taken b t = min b t := by
  unfold taken
  split_ifs with h
  · rw [le_antisymm h ht, min_eq_right hb]
  · rfl

theorem drain_nonneg (hbs : ∀ x ∈ bs, 0 ≤ x) : ∀ x ∈ drain t bs, 0 ≤ x := by
  induction bs generalizing t with
  | nil => simp [drain]
  | cons b bs ih =>
    obtain ⟨hb, hbs⟩ := List.forall_mem_cons.mp hbs
    rw [drain, List.forall_mem_cons]
    refine ⟨?_, ih hbs⟩
    unfold taken
    split_ifs with h
    · exact le_rfl
    · exact le_min hb (not_le.mp h).le

theorem taken_le (hb : 0 ≤ b) (ht : 0 ≤ t) : taken b t ≤ b ∧ taken b t ≤ t := by
  rw [taken_eq hb ht]
  exact ⟨min_le_left b t, min_le_right b t⟩

variable [IsOrderedAddMonoid K]

/-- The whole amount, as far as the buckets reach. -/
theorem sum_drain (hbs : ∀ x ∈ bs, 0 ≤ x) (ht : 0 ≤ t) : (drain t bs).sum = min t bs.sum := by
  induction bs generalizing t with
  | nil => rw [drain, List.sum_nil, min_eq_right ht]
  | cons b bs ih =>
    obtain ⟨hb, hbs⟩ := List.forall_mem_cons.mp hbs
    rw [drain, List.sum_cons, List.sum_cons, ih hbs (sub_nonneg.mpr (taken_le hb ht).2),
      taken_eq hb ht]
    rcases le_total b t with h | h
    · rw [min_eq_left h, ← min_add_add_left, add_sub_cancel]
    · have hsum : 0 ≤ bs.sum := List.sum_nonneg hbs
      rw [min_eq_right h, sub_self, min_eq_left hsum, add_zero,
        min_eq_left (h.trans (le_add_of_nonneg_right hsum))]

/-- Where something is left for the later buckets, the earlier ones are empty. -/
theorem left_eq_zero (hbs : ∀ x ∈ bs, 0 ≤ x) (ht : 0 ≤ t) (h : 0 < t - (drain t bs).sum) :
    ∀ x ∈ left t bs, x = 0 := by
  induction bs generalizing t with
  | nil => simp [left]
  | cons b bs ih =>
    obtain ⟨hb, hbs⟩ := List.forall_mem_cons.mp hbs
    have hrest : 0 ≤ t - taken b t := sub_nonneg.mpr (taken_le hb ht).2
    rw [drain, List.sum_cons, ← sub_sub] at h
    rw [left, List.forall_mem_cons]
    refine ⟨?_, ih hbs hrest h⟩
    -- something is left behind the first bucket, so the amount exceeds it
    have hsum : 0 ≤ (drain (t - taken b t) bs).sum := by
      rw [sum_drain hbs hrest]
      exact le_min hrest (List.sum_nonneg hbs)
    have hlt : taken b t < t := by
      rw [← sub_pos]
      exact h.trans_le (sub_le_self _ hsum)
    rw [taken_eq hb ht] at hlt ⊢
    rw [min_eq_left (not_lt.mp fun hbt => hlt.ne (min_eq_right hbt.le)), sub_self]

/-- The later buckets are touched exactly when the amount exceeds the earlier ones. -/
theorem sum_drain_pos_iff (hpre : ∀ x ∈ pre, 0 ≤ x) (hpost : ∀ x ∈ post, 0 ≤ x) (ht : 0 ≤ t) :
    0 < (drain (t - (drain t pre).sum) post).sum ↔ pre.sum < t ∧ 0 < post.sum := by
  have hrest : 0 ≤ t - (drain t pre).sum := by
    rw [sum_drain hpre ht, sub_nonneg]
    exact min_le_left t pre.sum
  rw [sum_drain hpost hrest, lt_min_iff, sum_drain hpre ht, sub_pos, min_lt_iff]
  simp

/-- One amount after the other leaves what the two together leave. -/
theorem left_left (hbs : ∀ x ∈ bs, 0 ≤ x) (ht : 0 ≤ t) (hu : 0 ≤ u) :
    left u (left t bs) = left (t + u) bs := by
  induction bs generalizing t u with
  | nil => rfl
  | cons b bs ih =>
    obtain ⟨hb, hbs⟩ := List.forall_mem_cons.mp hbs
    have hleft : 0 ≤ b - taken b t := sub_nonneg.mpr (taken_le hb ht).1
    rw [left, left, left, ih hbs (sub_nonneg.mpr (taken_le hb ht).2)
      (sub_nonneg.mpr (taken_le hleft hu).2)]
    have htaken : taken b t + taken (b - taken b t) u = taken b (t + u) := by
      rw [taken_eq hleft hu, taken_eq hb (add_nonneg ht hu), taken_eq hb ht]
      rcases le_total b t with h | h
      · rw [min_eq_left h, sub_self, min_eq_left hu, add_zero,
          min_eq_left (h.trans (le_add_of_nonneg_right hu))]
      · rw [min_eq_right h, ← min_add_add_left, add_sub_cancel]
    congr 1
    · rw [sub_sub, htaken]
    · rw [← htaken]
      congr 1
      abel

end Waterfall
