import Mathlib.Order.Defs.Unbundled
import Mathlib.Tactic
import Pyharmonics.Library.Machines

/-! Fronts: lists that take in unbeaten elements and drop those they beat. -/
namespace Fronts

open Machines

variable {α κ : Type*} [DecidableEq κ] {key : α → κ} {Beats : α → α → Prop} [DecidableRel Beats]
  {front as xs ys : List α} {a b : α}

/-- An element goes in when its key is new and no member beats it; the members it beats go. -/
def offer (key : α → κ) (Beats : α → α → Prop) [DecidableRel Beats] (front : List α) (a : α) :
    List α × Bool :=
  if front.any fun b => key b = key a then (front, false)
  else if (front.filter fun b => ¬ Beats a b).any fun b => Beats b a then (front, false)
  else ((front.filter fun b => ¬ Beats a b) ++ [a], true)

/-- The keys are distinct, and no member beats another. -/
structure Unbeaten (key : α → κ) (Beats : α → α → Prop) (front : List α) : Prop where
  keys : (front.map key).Nodup
  apart : ∀ a ∈ front, ∀ b ∈ front, ¬ Beats a b

/-- The element is in the front, or a member beats it. -/
def Covers (Beats : α → α → Prop) (front : List α) (a : α) : Prop :=
  a ∈ front ∨ ∃ b ∈ front, Beats b a

omit [DecidableEq κ] [DecidableRel Beats] in
theorem unbeaten_nil : Unbeaten key Beats [] := ⟨List.nodup_nil, by simp⟩

theorem mem_filter_unbeaten : b ∈ (front.filter fun b => ¬ Beats a b) ↔ b ∈ front ∧ ¬ Beats a b := by
  rw [List.mem_filter, decide_eq_true_iff]

section

variable [IsStrictOrder α Beats]

/-- What an offer can do. A member that beats the new one is never dropped before the check. -/
theorem offer_cases (key : α → κ) (Beats : α → α → Prop) [DecidableRel Beats]
    [IsStrictOrder α Beats] (front : List α) (a : α) :
    offer key Beats front a = (front, false) ∧ (∃ b ∈ front, key b = key a ∨ Beats b a) ∨
    offer key Beats front a = ((front.filter fun b => ¬ Beats a b) ++ [a], true) ∧
      ∀ b ∈ front, key b ≠ key a ∧ ¬ Beats b a := by
  by_cases hkey : ∃ b ∈ front, key b = key a
  · left
    obtain ⟨b, hb, hk⟩ := hkey
    refine ⟨if_pos ?_, b, hb, .inl hk⟩
    exact List.any_eq_true.mpr ⟨b, hb, decide_eq_true hk⟩
  · have hnokey : ¬ (front.any fun b => key b = key a) = true := by
      rintro hany
      obtain ⟨b, hb, hk⟩ := List.any_eq_true.mp hany
      exact hkey ⟨b, hb, of_decide_eq_true hk⟩
    rw [offer, if_neg hnokey]
    by_cases hbeaten : ∃ b ∈ front, Beats b a
    · left
      obtain ⟨b, hb, hba⟩ := hbeaten
      refine ⟨if_pos ?_, b, hb, .inr hba⟩
      refine List.any_eq_true.mpr ⟨b, ?_, decide_eq_true hba⟩
      rw [List.mem_filter]
      exact ⟨hb, decide_eq_true (asymm hba)⟩
    · right
      refine ⟨if_neg ?_, ?_⟩
      · rintro hany
        obtain ⟨b, hb, hba⟩ := List.any_eq_true.mp hany
        exact hbeaten ⟨b, (List.mem_filter.mp hb).1, of_decide_eq_true hba⟩
      · intro b hb
        exact ⟨fun hk => hkey ⟨b, hb, hk⟩, fun hba => hbeaten ⟨b, hb, hba⟩⟩

theorem offer_false (h : (offer key Beats front a).2 = false) : (offer key Beats front a).1 = front := by
  rcases offer_cases key Beats front a with ⟨heq, -⟩ | ⟨heq, -⟩
  · rw [heq]
  · rw [heq] at h
    cases h

theorem Unbeaten.offer (h : Unbeaten key Beats front) (a : α) :
    Unbeaten key Beats (offer key Beats front a).1 := by
  rcases offer_cases key Beats front a with ⟨heq, -⟩ | ⟨heq, hnew⟩
  · rw [heq]
    exact h
  · rw [heq]
    constructor
    · rw [List.map_append, List.map_singleton, ← List.concat_eq_append]
      refine List.Nodup.concat ?_ (h.keys.sublist (List.filter_sublist.map key))
      intro hmem
      obtain ⟨b, hb, hk⟩ := List.mem_map.mp hmem
      exact (hnew b (mem_filter_unbeaten.mp hb).1).1 hk
    · intro b hb c hc
      rw [List.mem_append, List.mem_singleton] at hb hc
      rcases hb with hb | rfl
      · rcases hc with hc | rfl
        · exact h.apart b (mem_filter_unbeaten.mp hb).1 c (mem_filter_unbeaten.mp hc).1
        · exact (hnew b (mem_filter_unbeaten.mp hb).1).2
      · rcases hc with hc | rfl
        · exact (mem_filter_unbeaten.mp hc).2
        · exact irrefl c

/-- Whatever an offer drops is beaten by the element it takes in. -/
theorem Covers.offer (h : Covers Beats front b) (a : α) :
    Covers Beats (offer key Beats front a).1 b := by
  rcases offer_cases key Beats front a with ⟨heq, -⟩ | ⟨heq, -⟩
  · rw [heq]
    exact h
  · rw [heq]
    have hkept : ∀ c ∈ front, c ∈ (front.filter fun b => ¬ Beats a b) ++ [a] ∨ Beats a c := by
      intro c hc
      by_cases hac : Beats a c
      · exact .inr hac
      · exact .inl (List.mem_append_left _ (mem_filter_unbeaten.mpr ⟨hc, hac⟩))
    have hnew : a ∈ (front.filter fun b => ¬ Beats a b) ++ [a] := by simp
    rcases h with hb | ⟨c, hc, hcb⟩
    · rcases hkept b hb with hmem | hab
      · exact .inl hmem
      · exact .inr ⟨a, hnew, hab⟩
    · rcases hkept c hc with hmem | hac
      · exact .inr ⟨c, hmem, hcb⟩
      · exact .inr ⟨a, hnew, trans_of Beats hac hcb⟩

theorem covers_offer (key : α → κ) (front : List α) (a : α) :
    Covers Beats (offer key Beats front a).1 a ∨ ∃ b ∈ front, key b = key a := by
  rcases offer_cases key Beats front a with ⟨heq, b, hb, hk | hba⟩ | ⟨heq, -⟩
  · exact .inr ⟨b, hb, hk⟩
  · rw [heq]
    exact .inl (.inr ⟨b, hb, hba⟩)
  · rw [heq]
    exact .inl (.inl (by simp))

theorem mem_of_mem_offer (h : b ∈ (offer key Beats front a).1) : b ∈ front ∨ b = a := by
  rcases offer_cases key Beats front a with ⟨heq, -⟩ | ⟨heq, -⟩
  · rw [heq] at h
    exact .inl h
  · rw [heq, List.mem_append, List.mem_singleton] at h
    exact h.imp_left fun hb => (mem_filter_unbeaten.mp hb).1

/-! Fronts of a sequence of offers. -/

theorem unbeaten_final (as : List α) : Unbeaten key Beats (final (offer key Beats) [] as) :=
  final_inv (fun _ a h => h.offer a) unbeaten_nil

theorem Covers.final (h : Covers Beats front b) (as : List α) :
    Covers Beats (Machines.final (Fronts.offer key Beats) front as) b :=
  final_inv (I := fun front => Covers Beats front b) (fun _ a h => h.offer a) h

/-- An offered element is covered at the end, unless its key was there when it was offered. -/
theorem covers_final (key : α → κ) (xs : List α) (a : α) (ys : List α) :
    Covers Beats (final (offer key Beats) [] (xs ++ a :: ys)) a ∨
      ∃ b ∈ final (offer key Beats) [] xs, key b = key a := by
  rw [final_append, final_cons]
  exact (covers_offer key _ a).imp_left fun h => h.final ys

theorem mem_of_mem_final (h : b ∈ final (offer key Beats) front as) : b ∈ front ∨ b ∈ as := by
  induction as generalizing front with
  | nil => exact .inl h
  | cons a as ih =>
    rcases ih h with hb | hb
    · rcases mem_of_mem_offer hb with hb | rfl
      · exact .inl hb
      · exact .inr List.mem_cons_self
    · exact .inr (List.mem_cons_of_mem _ hb)

/-- Elements of distinct keys leave exactly those that none of them beats. -/
theorem mem_final_iff (hn : (as.map key).Nodup) :
    a ∈ final (offer key Beats) [] as ↔ a ∈ as ∧ ∀ b ∈ as, ¬ Beats b a := by
  have hcovered : ∀ b ∈ as, Covers Beats (final (offer key Beats) [] as) b := by
    intro b hb
    obtain ⟨xs, ys, rfl⟩ := List.append_of_mem hb
    refine (covers_final key xs b ys).resolve_right ?_
    rintro ⟨c, hc, hk⟩
    have hc : c ∈ xs := (mem_of_mem_final hc).resolve_left (List.not_mem_nil)
    rw [List.map_append, List.map_cons, List.nodup_middle] at hn
    exact (List.nodup_cons.mp hn).1 (List.mem_append_left _ (hk ▸ List.mem_map_of_mem hc))
  constructor
  · intro ha
    refine ⟨(mem_of_mem_final ha).resolve_left List.not_mem_nil, ?_⟩
    intro b hb hba
    rcases hcovered b hb with hb | ⟨c, hc, hcb⟩
    · exact (unbeaten_final as).apart b hb a ha hba
    · exact (unbeaten_final as).apart c hc a ha (trans_of Beats hcb hba)
  · rintro ⟨ha, hbest⟩
    refine (hcovered a ha).resolve_right ?_
    rintro ⟨b, hb, hba⟩
    exact hbest b ((mem_of_mem_final hb).resolve_left List.not_mem_nil) hba

end

end Fronts
