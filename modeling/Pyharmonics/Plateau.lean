import Pyharmonics.LoopDriver

/-! How many generations of the history have passed without growth. -/
namespace Pyharmonics.Loop

open Sorting

variable {history : List HistoryRecord} {rec r : HistoryRecord} {best : Dict ℤ ℚ} {g : ℤ}
  {gens : List ℤ} {f : ℤ → ℚ}

/-- `rec.get("fitness") or 0.0` -/
def HistoryRecord.fit (rec : HistoryRecord) : ℚ := rec.fitness.getD 0

/-- One line of the history into the best fitness of each generation. -/
def noteBest (best : Dict ℤ ℚ) (rec : HistoryRecord) : Dict ℤ ℚ :=
  if rec.decision = .accepted then
    match best.get? rec.gen with
    | none => best.set rec.gen rec.fit
    | some b => if b < rec.fit then best.set rec.gen rec.fit else best
  else best

/-- One generation in the count of those without improvement: the count and the best before it. -/
def countGen (f : ℤ → ℚ) (s : ℕ × ℚ) (g : ℤ) : ℕ × ℚ :=
  if s.2 < f g then (0, f g) else (s.1 + 1, s.2)

/-- `plateau_count_from_history` -/
def plateauCountFromHistory (history : List HistoryRecord) : ℕ :=
  let best := history.foldl noteBest .empty
  match sortBy id best.keys with
  | [] => 0
  | g :: gens => (gens.foldl (countGen fun g => best.getD g 0) (0, best.getD g 0)).1

def HistoryRecord.Accepted (rec : HistoryRecord) : Prop := rec.decision = .accepted

instance : DecidablePred HistoryRecord.Accepted := fun rec =>
  inferInstanceAs (Decidable (rec.decision = .accepted))

/-- The dict has the best fitness of every generation with an accepted record. -/
structure Notes (history : List HistoryRecord) (best : Dict ℤ ℚ) : Prop where
  bound : ∀ r ∈ history, r.Accepted → ∃ b, best.get? r.gen = some b ∧ r.fit ≤ b
  hit : ∀ {g b}, best.get? g = some b → ∃ r ∈ history, r.Accepted ∧ r.gen = g ∧ r.fit = b

theorem Notes.empty : Notes [] .empty := by
  refine ⟨by simp, fun h => ?_⟩
  cases h

theorem Notes.set (h : Notes history best) (hr : rec.Accepted)
    (hle : ∀ b, best.get? rec.gen = some b → b ≤ rec.fit) :
    Notes (history ++ [rec]) (best.set rec.gen rec.fit) := by
  constructor
  · intro r hmem hacc
    rw [Dict.get?_set]
    split_ifs with hgen
    · refine ⟨rec.fit, rfl, ?_⟩
      rcases List.mem_append.mp hmem with hmem | hmem
      · obtain ⟨b, hb, hfit⟩ := h.bound r hmem hacc
        rw [hgen] at hb
        exact hfit.trans (hle b hb)
      · rw [List.mem_singleton.mp hmem]
    · rcases List.mem_append.mp hmem with hmem | hmem
      · exact h.bound r hmem hacc
      · rw [List.mem_singleton.mp hmem] at hgen
        exact absurd rfl hgen
  · intro g b hb
    rw [Dict.get?_set] at hb
    split_ifs at hb with hgen
    · exact ⟨rec, by simp, hr, hgen.symm, Option.some.inj hb⟩
    · obtain ⟨r, hmem, hacc, hg, hfit⟩ := h.hit hb
      exact ⟨r, List.mem_append_left _ hmem, hacc, hg, hfit⟩

theorem Notes.skip (h : Notes history best)
    (hr : rec.Accepted → ∃ b, best.get? rec.gen = some b ∧ rec.fit ≤ b) :
    Notes (history ++ [rec]) best := by
  constructor
  · intro r hmem hacc
    rcases List.mem_append.mp hmem with hmem | hmem
    · exact h.bound r hmem hacc
    · rw [List.mem_singleton.mp hmem] at hacc ⊢
      exact hr hacc
  · intro g b hb
    obtain ⟨r, hmem, hacc⟩ := h.hit hb
    exact ⟨r, List.mem_append_left _ hmem, hacc⟩

theorem Notes.step (h : Notes history best) : Notes (history ++ [rec]) (noteBest best rec) := by
  unfold noteBest
  split_ifs with hacc
  · cases hget : best.get? rec.gen with
    | none => exact h.set hacc (by rw [hget]; intro b hb; cases hb)
    | some b =>
      simp only
      split_ifs with hlt
      · refine h.set hacc fun b' hb' => ?_
        rw [hget] at hb'
        obtain rfl := Option.some.inj hb'
        exact hlt.le
      · exact h.skip fun _ => ⟨b, hget, not_lt.mp hlt⟩
  · exact h.skip fun hacc' => absurd hacc' hacc

theorem notes_history (history : List HistoryRecord) :
    Notes history (history.foldl noteBest .empty) := by
  induction history using List.reverseRecOn with
  | nil => exact Notes.empty
  | append_singleton history rec ih =>
    rw [List.foldl_append]
    exact ih.step

/-- A generation without improvement: neither it nor a later one of the list is better than all
before it. -/
def Stale (f : ℤ → ℚ) (gens : List ℤ) (g : ℤ) : Prop :=
  ∀ a ∈ gens, g ≤ a → ∃ b ∈ gens, b < a ∧ f a ≤ f b

instance : Decidable (Stale f gens g) := inferInstanceAs (Decidable (∀ a ∈ gens, _))

theorem stale_concat {x b₀ : ℤ} (hlt : ∀ a ∈ gens, a < x) (hb : b₀ ∈ gens) (hle : f x ≤ f b₀) :
    Stale f (gens ++ [x]) g ↔ Stale f gens g := by
  constructor
  · intro h a ha hga
    obtain ⟨b, hb, hba, hfit⟩ := h a (List.mem_append_left _ ha) hga
    rcases List.mem_append.mp hb with hb | hb
    · exact ⟨b, hb, hba, hfit⟩
    · rw [List.mem_singleton.mp hb] at hba
      exact absurd hba (hlt a ha).asymm
  · intro h a ha hga
    rcases List.mem_append.mp ha with ha | ha
    · obtain ⟨b, hb, hba, hfit⟩ := h a ha hga
      exact ⟨b, List.mem_append_left _ hb, hba, hfit⟩
    · rw [List.mem_singleton.mp ha]
      exact ⟨b₀, List.mem_append_left _ hb, hlt b₀ hb, hle⟩

/-- The fold counts the stale generations and keeps the best fitness. -/
theorem countGen_fold (g : ℤ) (gens : List ℤ) (hsorted : (g :: gens).Pairwise (· < ·)) :
    (gens.foldl (countGen f) (0, f g)).1 = ((g :: gens).filter (Stale f (g :: gens))).length ∧
      (∀ a ∈ g :: gens, f a ≤ (gens.foldl (countGen f) (0, f g)).2) ∧
      ∃ a ∈ g :: gens, f a = (gens.foldl (countGen f) (0, f g)).2 := by
  induction gens using List.reverseRecOn with
  | nil =>
    have hstale : ¬ Stale f [g] g := by
      intro h
      obtain ⟨b, hb, hlt, -⟩ := h g (by simp) le_rfl
      rw [List.mem_singleton.mp hb] at hlt
      exact lt_irrefl g hlt
    refine ⟨?_, by simp, g, by simp, rfl⟩
    rw [List.filter_cons_of_neg (by simpa using hstale)]
    rfl
  | append_singleton gens x ih =>
    rw [← List.cons_append, List.pairwise_append] at hsorted
    obtain ⟨hsorted, -, hlt⟩ := hsorted
    have hlt : ∀ a ∈ g :: gens, a < x := fun a ha => hlt a ha x (by simp)
    obtain ⟨hcount, hmax, b₀, hb₀, hfit⟩ := ih hsorted
    rw [List.foldl_append, List.foldl_cons, List.foldl_nil, countGen, ← List.cons_append]
    split_ifs with himproves
    · refine ⟨?_, ?_, x, by simp, rfl⟩
      · symm
        rw [List.length_eq_zero_iff, List.filter_eq_nil_iff]
        intro a ha hstale
        have hax : a ≤ x := by
          rcases List.mem_append.mp ha with ha | ha
          · exact (hlt a ha).le
          · exact (List.mem_singleton.mp ha).le
        obtain ⟨b, hb, hbx, hle⟩ := (of_decide_eq_true hstale) x (by simp) hax
        rcases List.mem_append.mp hb with hb | hb
        · exact absurd (hle.trans (hmax b hb)) (not_le.mpr himproves)
        · rw [List.mem_singleton.mp hb] at hbx
          exact lt_irrefl x hbx
      · intro a ha
        rcases List.mem_append.mp ha with ha | ha
        · exact (hmax a ha).trans himproves.le
        · rw [List.mem_singleton.mp ha]
    · have hle : f x ≤ f b₀ := hfit ▸ not_lt.mp himproves
      have hfilter : (g :: gens).filter (Stale f (g :: gens ++ [x])) =
          (g :: gens).filter (Stale f (g :: gens)) :=
        List.filter_congr fun a _ => by simp only [stale_concat hlt hb₀ hle]
      have hx : Stale f (g :: gens ++ [x]) x := by
        intro a ha hxa
        rcases List.mem_append.mp ha with ha | ha
        · exact absurd hxa (not_le.mpr (hlt a ha))
        · rw [List.mem_singleton.mp ha]
          exact ⟨b₀, List.mem_append_left _ hb₀, hlt b₀ hb₀, hle⟩
      refine ⟨?_, ?_, b₀, List.mem_append_left _ hb₀, hfit⟩
      · rw [List.filter_append, hfilter, List.length_append, ← hcount,
          List.filter_cons_of_pos (by simpa using hx)]
        rfl
      · intro a ha
        rcases List.mem_append.mp ha with ha | ha
        · exact hmax a ha
        · rw [List.mem_singleton.mp ha]
          exact not_lt.mp himproves

/-- The generations the code counts: something was accepted in them, and nothing accepted in them
or a generation with a greater number is better than all that was accepted in those with smaller
numbers, of whatever cluster. -/
def countedGens (history : List HistoryRecord) : Finset ℤ :=
  ((history.filter HistoryRecord.Accepted).map HistoryRecord.gen).toFinset.filter fun g =>
    ∀ r ∈ history, r.Accepted → g ≤ r.gen →
      ∃ r' ∈ history, r'.Accepted ∧ r'.gen < r.gen ∧ r.fit ≤ r'.fit

theorem mem_countedGens : g ∈ countedGens history ↔
    (∃ r ∈ history, r.Accepted ∧ r.gen = g) ∧ ∀ r ∈ history, r.Accepted → g ≤ r.gen →
      ∃ r' ∈ history, r'.Accepted ∧ r'.gen < r.gen ∧ r.fit ≤ r'.fit := by
  rw [countedGens, Finset.mem_filter, List.mem_toFinset, List.mem_map]
  simp only [List.mem_filter, decide_eq_true_eq, and_assoc]

theorem Notes.mem_keys (h : Notes history best) :
    g ∈ best.keys ↔ ∃ r ∈ history, r.Accepted ∧ r.gen = g := by
  constructor
  · intro hg
    obtain ⟨⟨g, b⟩, hmem, rfl⟩ := List.mem_map.mp hg
    obtain ⟨r, hr, hacc, hgen, -⟩ := h.hit (Dict.get?_eq_some_iff.mpr hmem)
    exact ⟨r, hr, hacc, hgen⟩
  · rintro ⟨r, hr, hacc, rfl⟩
    obtain ⟨b, hb, -⟩ := h.bound r hr hacc
    exact List.mem_map_of_mem (f := Prod.fst) (Dict.get?_eq_some_iff.mp hb)

theorem Notes.fit_le (h : Notes history best) (hr : r ∈ history) (hacc : r.Accepted) :
    r.fit ≤ best.getD r.gen 0 := by
  obtain ⟨b, hb, hle⟩ := h.bound r hr hacc
  rwa [Dict.getD_of_get? hb]

theorem Notes.exists_fit (h : Notes history best) (hg : g ∈ best.keys) :
    ∃ r ∈ history, r.Accepted ∧ r.gen = g ∧ r.fit = best.getD g 0 := by
  obtain ⟨r, hr, hacc, rfl⟩ := h.mem_keys.mp hg
  obtain ⟨b, hb, -⟩ := h.bound r hr hacc
  obtain ⟨r', hr', hacc', hgen', hfit'⟩ := h.hit hb
  exact ⟨r', hr', hacc', hgen', by rw [Dict.getD_of_get? hb, hfit']⟩

theorem Notes.stale_iff (h : Notes history best) (hgens : ∀ a, a ∈ gens ↔ a ∈ best.keys) :
    Stale (fun a => best.getD a 0) gens g ↔ ∀ r ∈ history, r.Accepted → g ≤ r.gen →
      ∃ r' ∈ history, r'.Accepted ∧ r'.gen < r.gen ∧ r.fit ≤ r'.fit := by
  constructor
  · intro hs r hr hacc hg
    obtain ⟨b, hb, hlt, hle⟩ := hs r.gen ((hgens _).mpr (h.mem_keys.mpr ⟨r, hr, hacc, rfl⟩)) hg
    obtain ⟨r', hr', hacc', rfl, hfit⟩ := h.exists_fit ((hgens b).mp hb)
    exact ⟨r', hr', hacc', hlt, ((h.fit_le hr hacc).trans hle).trans hfit.ge⟩
  · intro hs a ha hga
    obtain ⟨r, hr, hacc, rfl, hfit⟩ := h.exists_fit ((hgens a).mp ha)
    obtain ⟨r', hr', hacc', hlt, hle⟩ := hs r hr hacc hga
    refine ⟨r'.gen, (hgens _).mpr (h.mem_keys.mpr ⟨r', hr', hacc', rfl⟩), hlt, ?_⟩
    exact hfit.ge.trans (hle.trans (h.fit_le hr' hacc'))

/-- The count is the number of generations with something accepted since the last one that was
better than all before it. -/
theorem plateauCount_eq (history : List HistoryRecord) :
    plateauCountFromHistory history = (countedGens history).card := by
  have h := notes_history history
  unfold plateauCountFromHistory
  simp only
  generalize hbest : history.foldl noteBest .empty = best at h
  have hgens : ∀ a, a ∈ sortBy id best.keys ↔ a ∈ best.keys := fun _ => mem_sortBy
  have hnodup : (sortBy id best.keys).Nodup :=
    ((sortBy_perm id best.keys).nodup_iff).mpr best.nodup
  have hsorted : (sortBy id best.keys).Pairwise (· < ·) :=
    ((sortBy_pairwise id best.keys).and hnodup).imp fun hab => lt_of_le_of_ne hab.1 hab.2
  have hset : countedGens history = ((sortBy id best.keys).filter
      (Stale (fun a => best.getD a 0) (sortBy id best.keys))).toFinset := by
    ext g
    rw [mem_countedGens, List.mem_toFinset, List.mem_filter, hgens, h.mem_keys,
      decide_eq_true_eq, h.stale_iff hgens]
  rw [hset, List.toFinset_card_of_nodup (hnodup.filter _)]
  cases hl : sortBy id best.keys with
  | nil => rfl
  | cons g gens =>
    rw [hl] at hsorted
    exact (countGen_fold g gens hsorted).1

/-- The record at this position is accepted and strictly fitter than every earlier accepted record
of its cluster. -/
def IsGrowth (history : List HistoryRecord) (i : ℕ) : Prop :=
  ∃ rec ∈ history[i]?, rec.Accepted ∧
    ∀ r ∈ history.take i, r.Accepted → r.cluster = rec.cluster → r.fit < rec.fit

instance {i : ℕ} : Decidable (IsGrowth history i) :=
  match h : history[i]? with
  | none => isFalse fun ⟨_, hr, _⟩ => by rw [h] at hr; cases hr
  | some rec =>
    decidable_of_iff (rec.Accepted ∧
      ∀ r ∈ history.take i, r.Accepted → r.cluster = rec.cluster → r.fit < rec.fit)
      ⟨fun hr => ⟨rec, h, hr⟩, fun ⟨r, hr, hg⟩ => by
        rw [h] at hr
        obtain rfl := Option.some.inj hr
        exact hg⟩

/-- The position of the last growth event. -/
def lastGrowth (history : List HistoryRecord) : Option ℕ :=
  ((List.range history.length).filter (IsGrowth history)).getLast?

/-- The generations recorded after the last growth event, other than its own. -/
def dueGens (history : List HistoryRecord) : Finset ℤ :=
  match lastGrowth history with
  | none => (history.map HistoryRecord.gen).toFinset
  | some i => ((history.drop (i + 1)).map HistoryRecord.gen).toFinset.filter fun g =>
      some g ≠ history[i]?.map HistoryRecord.gen

theorem isGrowth_lt {i : ℕ} (h : IsGrowth history i) : i < history.length := by
  obtain ⟨rec, hrec, -⟩ := h
  exact (List.getElem?_eq_some_iff.mp hrec).1

theorem lastGrowth_le {i j : ℕ} (h : lastGrowth history = some i) (hj : IsGrowth history j) :
    j ≤ i := by
  have hmem : j ∈ (List.range history.length).filter (IsGrowth history) :=
    List.mem_filter.mpr ⟨List.mem_range.mpr (isGrowth_lt hj), by simpa using hj⟩
  have hsorted : ((List.range history.length).filter (IsGrowth history)).Pairwise (· < ·) :=
    List.pairwise_lt_range.filter _
  obtain ⟨init, hinit⟩ := List.getLast?_eq_some_iff.mp h
  rw [hinit] at hmem hsorted
  rcases List.mem_append.mp hmem with hmem | hmem
  · exact ((List.pairwise_append.mp hsorted).2.2 j hmem i (by simp)).le
  · exact (List.mem_singleton.mp hmem).le

theorem isGrowth_of_last {i : ℕ} (h : lastGrowth history = some i) : IsGrowth history i :=
  of_decide_eq_true (List.mem_filter.mp (List.mem_of_getLast? h)).2

theorem not_isGrowth {j : ℕ} (h : lastGrowth history = none) : ¬ IsGrowth history j := by
  intro hj
  have hnil := List.getLast?_eq_none_iff.mp h
  have hmem : j ∈ (List.range history.length).filter (IsGrowth history) :=
    List.mem_filter.mpr ⟨List.mem_range.mpr (isGrowth_lt hj), by simpa using hj⟩
  rw [hnil] at hmem
  cases hmem

theorem exists_index_of_mem_take {i : ℕ} (h : r ∈ history.take i) :
    ∃ j < i, history[j]? = some r := by
  obtain ⟨j, hj⟩ := List.mem_iff_getElem?.mp h
  have hlt : j < i := by
    have := (List.getElem?_eq_some_iff.mp hj).1
    rw [List.length_take] at this
    omega
  rw [List.getElem?_take_of_lt hlt] at hj
  exact ⟨j, hlt, hj⟩

/-- The generations stand in the file in order. -/
def InOrder (history : List HistoryRecord) : Prop :=
  history.Pairwise fun r r' => r.gen ≤ r'.gen

theorem InOrder.gen_le (hord : InOrder history) {p q : ℕ} (hp : history[p]? = some rec)
    (hq : history[q]? = some r) (hpq : p ≤ q) : rec.gen ≤ r.gen := by
  obtain ⟨hp', rfl⟩ := List.getElem?_eq_some_iff.mp hp
  obtain ⟨hq', rfl⟩ := List.getElem?_eq_some_iff.mp hq
  rcases hpq.lt_or_eq with hlt | rfl
  · exact List.pairwise_iff_getElem.mp hord p q hp' hq' hlt
  · exact le_rfl

theorem InOrder.lt_of_gen_lt (hord : InOrder history) {p q : ℕ} (hp : history[p]? = some rec)
    (hq : history[q]? = some r) (hgen : rec.gen < r.gen) : p < q := by
  by_contra hle
  exact absurd hgen (not_lt.mpr (hord.gen_le hq hp (not_lt.mp hle)))

/-- Behind every growth event an accepted record is no better than one of an earlier
generation. -/
theorem exists_better (hord : InOrder history) {p : ℕ} (hp : history[p]? = some r)
    (hacc : r.Accepted)
    (hno : ∀ j r', IsGrowth history j → history[j]? = some r' → r'.gen < r.gen) :
    ∃ r' ∈ history, r'.Accepted ∧ r'.gen < r.gen ∧ r.fit ≤ r'.fit := by
  induction p using Nat.strong_induction_on generalizing r with
  | _ p ih =>
    have hnot : ¬ IsGrowth history p := fun hg => lt_irrefl _ (hno p r hg hp)
    obtain ⟨r₁, hr₁, hacc₁, -, hfit⟩ : ∃ r₁ ∈ history.take p, r₁.Accepted ∧
        r₁.cluster = r.cluster ∧ ¬ r₁.fit < r.fit := by
      by_contra hall
      refine hnot ⟨r, hp, hacc, fun r₁ hr₁ hacc₁ hc => ?_⟩
      by_contra hfit
      exact hall ⟨r₁, hr₁, hacc₁, hc, hfit⟩
    obtain ⟨q, hqp, hq⟩ := exists_index_of_mem_take hr₁
    have hmem : r₁ ∈ history := List.mem_of_getElem? hq
    rcases (hord.gen_le hq hp hqp.le).lt_or_eq with hlt | heq
    · exact ⟨r₁, hmem, hacc₁, hlt, not_lt.mp hfit⟩
    · obtain ⟨r', hr', hacc', hlt, hle⟩ := ih q hqp hq hacc₁ (by rwa [heq])
      exact ⟨r', hr', hacc', heq ▸ hlt, (not_lt.mp hfit).trans hle⟩

theorem exists_record_of_due (hg : g ∈ dueGens history) : ∃ r ∈ history, r.gen = g := by
  unfold dueGens at hg
  split at hg
  · exact List.mem_map.mp (List.mem_toFinset.mp hg)
  · obtain ⟨r, hr, hgen⟩ := List.mem_map.mp (List.mem_toFinset.mp (Finset.mem_filter.mp hg).1)
    exact ⟨r, List.mem_of_mem_drop hr, hgen⟩

/-- In a file in order every growth event comes before the generations that are due. -/
theorem growth_lt_due (hord : InOrder history) (hg : g ∈ dueGens history) {j : ℕ}
    (hj : IsGrowth history j) (hr : history[j]? = some r) : r.gen < g := by
  unfold dueGens at hg
  cases hlast : lastGrowth history with
  | none => exact absurd hj (not_isGrowth hlast)
  | some i =>
    rw [hlast] at hg
    obtain ⟨hmem, hne⟩ := Finset.mem_filter.mp hg
    obtain ⟨rec, hrec, rfl⟩ := List.mem_map.mp (List.mem_toFinset.mp hmem)
    obtain ⟨k, hk⟩ := List.mem_iff_getElem?.mp hrec
    rw [List.getElem?_drop] at hk
    obtain ⟨last, hi, -⟩ := isGrowth_of_last hlast
    have hi : history[i]? = some last := hi
    have hne : rec.gen ≠ last.gen := by
      rw [hi] at hne
      exact fun heq => hne (congrArg some heq)
    calc r.gen ≤ last.gen := hord.gen_le hr hi (lastGrowth_le hlast hj)
      _ < rec.gen := lt_of_le_of_ne (hord.gen_le hi hk (by omega)) hne.symm

/-- In a file in order the generations left out are those in which nothing was accepted. -/
theorem mem_missed_iff (hord : InOrder history) : g ∈ dueGens history \ countedGens history ↔
    g ∈ dueGens history ∧ ∀ r ∈ history, r.gen = g → ¬ r.Accepted := by
  rw [Finset.mem_sdiff, mem_countedGens]
  constructor
  · rintro ⟨hdue, hnot⟩
    refine ⟨hdue, fun r hr hgen hacc => hnot ⟨⟨r, hr, hacc, hgen⟩, fun r' hr' hacc' hle => ?_⟩⟩
    obtain ⟨p, hp⟩ := List.mem_iff_getElem?.mp hr'
    exact exists_better hord hp hacc' fun j r'' hj hr'' =>
      (growth_lt_due hord hdue hj hr'').trans_le hle
  · rintro ⟨hdue, hnone⟩
    refine ⟨hdue, ?_⟩
    rintro ⟨⟨r, hr, hacc, hgen⟩, -⟩
    exact hnone r hr hgen hacc

/-- Nothing is due where the last generation has a growth event. -/
theorem dueGens_eq_empty (hord : InOrder history) {j : ℕ} (hj : IsGrowth history j)
    (hr : history[j]? = some r) (hlast : ∀ r' ∈ history, r'.gen ≤ r.gen) :
    dueGens history = ∅ := by
  refine Finset.eq_empty_of_forall_notMem fun g hg => ?_
  obtain ⟨r', hr', rfl⟩ := exists_record_of_due hg
  exact absurd (hlast r' hr') (not_le.mpr (growth_lt_due hord hg hj hr))

/-- The first accepted record is a growth event. -/
theorem exists_growth (hr : r ∈ history) (hacc : r.Accepted) :
    ∃ i, lastGrowth history = some i := by
  cases hlast : lastGrowth history with
  | some i => exact ⟨i, rfl⟩
  | none =>
    exfalso
    have hall : ∀ (p : ℕ) (r : HistoryRecord), history[p]? = some r → ¬ r.Accepted := by
      intro p
      induction p using Nat.strong_induction_on with
      | _ p ih =>
        intro r hp hacc
        refine not_isGrowth hlast ⟨r, hp, hacc, fun r' hr' hacc' _ => ?_⟩
        obtain ⟨q, hqp, hq⟩ := exists_index_of_mem_take hr'
        exact absurd hacc' (ih q hqp r' hq)
    obtain ⟨p, hp⟩ := List.mem_iff_getElem?.mp hr
    exact hall p r hp hacc

/-- Everything was accepted in the same cluster. -/
def OneCluster (history : List HistoryRecord) : Prop :=
  ∀ r ∈ history, ∀ r' ∈ history, r.Accepted → r'.Accepted → r.cluster = r'.cluster

/-- In a file in order and of one cluster nothing is counted that is not due. -/
theorem counted_subset_due (hord : InOrder history) (hone : OneCluster history) :
    countedGens history ⊆ dueGens history := by
  intro g hg
  obtain ⟨⟨r, hr, hacc, rfl⟩, hstale⟩ := mem_countedGens.mp hg
  obtain ⟨i, hlast⟩ := exists_growth hr hacc
  obtain ⟨rec, hrec, hrecacc, hbest⟩ := isGrowth_of_last hlast
  have hlater : rec.gen < r.gen := by
    by_contra hle
    obtain ⟨r', hr', hacc', hlt, hfit⟩ :=
      hstale rec (List.mem_of_getElem? hrec) hrecacc (not_lt.mp hle)
    -- a record of an earlier generation stands before the growth event
    obtain ⟨k, hk⟩ := List.mem_iff_getElem?.mp hr'
    have hmem : r' ∈ history.take i := by
      refine List.mem_of_getElem? (i := k) ?_
      rw [List.getElem?_take_of_lt (hord.lt_of_gen_lt hk hrec hlt), hk]
    have hcluster := hone r' hr' rec (List.mem_of_getElem? hrec) hacc' hrecacc
    exact absurd hfit (not_le.mpr (hbest r' hmem hacc' hcluster))
  obtain ⟨p, hp⟩ := List.mem_iff_getElem?.mp hr
  have hip : i < p := hord.lt_of_gen_lt hrec hp hlater
  unfold dueGens
  rw [hlast]
  refine Finset.mem_filter.mpr ⟨List.mem_toFinset.mpr (List.mem_map_of_mem ?_), ?_⟩
  · refine List.mem_of_getElem? (i := p - (i + 1)) ?_
    rw [List.getElem?_drop, show i + 1 + (p - (i + 1)) = p by omega]
    exact hp
  · rw [hrec, Option.map_some]
    intro heq
    exact hlater.ne' (Option.some.inj heq)

/-- A record with the fields the count reads. -/
def plainRecord (gen : ℤ) (cluster : String) (decision : Decision) (fitness : ℚ) :
    HistoryRecord where
  ts := 0
  gen := gen
  cluster := cluster
  candidateId := ""
  paramsSha := ""
  decision := decision
  rejectionReason := none
  fitness := some fitness
  metrics := {}
  runDir := ""
  error := none
  checker :=
    { candidateId := "", decision := .promising, confidence := 0, reasons := [], flags := [] }
  strategyVersion := ""

/-- Something is accepted in the first generation, and nothing in the two after it. -/
def stalledHistory : List HistoryRecord :=
  [plainRecord 1 "C1 Geometry" .accepted 1, plainRecord 2 "C1 Geometry" .rejected 0,
    plainRecord 3 "C1 Geometry" .rejected 0]

/-- The second generation grows in a cluster of its own. -/
def twoClusters : List HistoryRecord :=
  [plainRecord 1 "C1 Geometry" .accepted 5, plainRecord 2 "C2 Discipline" .accepted 1]

end Pyharmonics.Loop
