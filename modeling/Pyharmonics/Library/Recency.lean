import Mathlib.Data.List.DropRight
import Mathlib.Data.Finset.Card
import Mathlib.Tactic

/-! Lists in the order of last use, the oldest entry in front. -/
namespace Recency

variable {κ : Type*} [DecidableEq κ]

/-- `k` was used: it goes behind the others. -/
def touch (k : κ) (l : List κ) : List κ := l.filter (· ≠ k) ++ [k]

/-- The uses after the last one of `k`. -/
def since (k : κ) (uses : List κ) : List κ := uses.rtakeWhile (· ≠ k)

/-- `k` is in the list, and what stands behind it was used after it. -/
def Recent (k : κ) (l uses : List κ) : Prop :=
  ∃ front back, l = front ++ k :: back ∧ ∀ a ∈ back, a ∈ since k uses

variable {k a : κ} {l uses : List κ} {n : ℕ}

@[simp] theorem since_concat_self : since k (uses ++ [k]) = [] := by
  simp [since]

@[simp] theorem since_concat_of_ne (h : a ≠ k) : since k (uses ++ [a]) = since k uses ++ [a] := by
  rw [since, List.rtakeWhile_concat_pos _ _ _ (by simpa using h), since]

theorem touch_of_notMem (h : k ∉ l) : touch k l = l ++ [k] := by
  rw [touch, List.filter_eq_self.mpr]
  intro b hb
  simpa using ne_of_mem_of_not_mem hb h

theorem mem_touch : a ∈ touch k l ↔ a = k ∨ a ∈ l := by
  by_cases h : a = k <;> simp [touch, h]

theorem length_touch (hl : l.Nodup) (h : k ∈ l) : (touch k l).length = l.length := by
  have hpos : 0 < l.length := List.length_pos_of_mem h
  have herase : l.filter (· ≠ k) = l.erase k := by
    rw [hl.erase_eq_filter]
    refine List.filter_congr fun b _ => ?_
    by_cases hb : b = k <;> simp [hb]
  rw [touch, herase, List.length_append, List.length_erase_of_mem h, List.length_singleton]
  omega

theorem nodup_touch (h : l.Nodup) : (touch k l).Nodup := by
  rw [touch, List.nodup_append]
  refine ⟨h.filter _, List.nodup_singleton k, ?_⟩
  intro b hb c hc
  rw [List.mem_singleton] at hc
  rw [hc]
  simpa using (List.mem_filter.mp hb).2

theorem Recent.mem (h : Recent k l uses) : k ∈ l := by
  obtain ⟨front, back, rfl, -⟩ := h
  simp

theorem recent_touch_self : Recent k (touch k l) (uses ++ [k]) :=
  ⟨l.filter (· ≠ k), [], rfl, fun _ h => (List.not_mem_nil h).elim⟩

/-- Others leave the list. -/
theorem Recent.filter (h : Recent k l uses) (hne : a ≠ k) : Recent k (l.filter (· ≠ a)) uses := by
  obtain ⟨front, back, rfl, hback⟩ := h
  refine ⟨front.filter (· ≠ a), back.filter (· ≠ a), ?_, ?_⟩
  · rw [List.filter_append, List.filter_cons_of_pos (by simpa using hne.symm)]
  · intro b hb
    exact hback b (List.mem_of_mem_filter hb)

/-- Others are used. -/
theorem Recent.touch (h : Recent k l uses) (hne : a ≠ k) :
    Recent k (touch a l) (uses ++ [a]) := by
  obtain ⟨front, back, hl, hback⟩ := h.filter hne
  refine ⟨front, back ++ [a], ?_, ?_⟩
  · rw [Recency.touch, hl, List.append_assoc, List.cons_append]
  · intro b hb
    rw [since_concat_of_ne hne]
    exact List.mem_append.mpr ((List.mem_append.mp hb).imp_left (hback b))

/-- What is dropped in front of `k` does not matter. -/
theorem Recent.drop (h : Recent k l uses) (hl : l.Nodup) (hk : k ∈ l.drop n) :
    Recent k (l.drop n) uses := by
  obtain ⟨front, back, rfl, hback⟩ := h
  have hnot : k ∉ back := (List.nodup_cons.mp (List.nodup_append.mp hl).2.1).1
  have hle : n ≤ front.length := by
    by_contra hlt
    rw [List.drop_append, List.drop_eq_nil_of_le (by omega), List.nil_append,
      show n - front.length = (n - front.length - 1) + 1 by omega, List.drop_succ_cons] at hk
    exact hnot (List.mem_of_mem_drop hk)
  exact ⟨front.drop n, back, List.drop_append_of_le_length hle, hback⟩

/-- Where the list is cut to its last `n` entries, `k` leaves it only after `n` others. -/
theorem Recent.card_of_dropped (h : Recent k l uses) (hl : l.Nodup)
    (hk : k ∉ l.drop (l.length - n)) : n ≤ (since k uses).toFinset.card := by
  obtain ⟨front, back, rfl, hback⟩ := h
  have hnodup : back.Nodup := (List.nodup_cons.mp (List.nodup_append.mp hl).2.1).2
  have hlen : n ≤ back.length := by
    by_contra hlt
    apply hk
    rw [List.drop_append_of_le_length]
    · simp
    · rw [List.length_append, List.length_cons]
      omega
  rw [← List.toFinset_card_of_nodup hnodup] at hlen
  refine hlen.trans (Finset.card_le_card fun b hb => ?_)
  exact List.mem_toFinset.mpr (hback b (List.mem_toFinset.mp hb))

/-- Further uses of others. -/
theorem card_since_le (hne : a ≠ k) :
    (since k uses).toFinset.card ≤ (since k (uses ++ [a])).toFinset.card := by
  rw [since_concat_of_ne hne]
  refine Finset.card_le_card fun b hb => ?_
  rw [List.mem_toFinset] at hb ⊢
  exact List.mem_append_left _ hb

end Recency
