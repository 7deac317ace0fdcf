import Mathlib.Data.List.DropRight
import Mathlib.Tactic

/-! Text that is read, split into lines, edited line by line and written back. -/
namespace TextLines

variable {α β : Type*} {text rest line before needle : List Char} {lines : List (List Char)} {c : Char}

/-- The characters a line ends at. -/
def breaks : List Char :=
  ['\n', '\r', '\x0b', '\x0c', '\x1c', '\x1d', '\x1e', '\x85', '\u2028', '\u2029']

/-- A file in text mode: every ending of a line is read as `\n`. -/
def universal : List Char → List Char
  | [] => []
  | c :: text =>
    if c = '\r' then if text.head? = some '\n' then universal text else '\n' :: universal text
    else c :: universal text

/-- `str.splitlines`, of a text that was read in text mode. -/
def splitLines : List Char → List (List Char)
  | [] => []
  | c :: text =>
    if c ∈ breaks then [] :: splitLines text
    else
      match splitLines text with
      | [] => [[c]]
      | line :: lines => (c :: line) :: lines

/-- The lines one after another, each with its end. -/
def flat (lines : List (List Char)) : List Char := lines.flatMap (· ++ ['\n'])

/-- `"\n".join(lines) + "\n"` -/
def joinLines (lines : List (List Char)) : List Char := ['\n'].intercalate lines ++ ['\n']

/-- Its lines end with `\n` only. -/
def Clean (text : List Char) : Prop := ∀ c ∈ text, c ∈ breaks → c = '\n'

/-- Its last line has its end. -/
def Ended (text : List Char) : Prop := ∀ c ∈ text.getLast?, c = '\n'

-- over the text, not over all characters
instance : Decidable (Clean text) := List.decidableBAll (fun c => c ∈ breaks → c = '\n') text

@[simp] theorem clean_nil : Clean [] := by simp [Clean]

@[simp] theorem clean_append : Clean (text ++ rest) ↔ Clean text ∧ Clean rest := by
  simp [Clean, or_imp, forall_and]

@[simp] theorem clean_cons : Clean (c :: rest) ↔ (c ∈ breaks → c = '\n') ∧ Clean rest := by
  simp [Clean]

@[simp] theorem clean_newline : Clean ['\n'] := by simp

@[simp] theorem ended_nil : Ended [] := by simp [Ended]

@[simp] theorem ended_concat : Ended (text ++ [c]) ↔ c = '\n' := by simp [Ended]

@[simp] theorem ended_newline : Ended ['\n'] := by simp [Ended]

theorem ended_append (htext : Ended text) (hrest : Ended rest) : Ended (text ++ rest) := by
  cases hlast : rest.getLast? with
  | none => simpa [List.getLast?_eq_none_iff.mp hlast] using htext
  | some d =>
    have hd : d = '\n' := hrest d hlast
    simp [Ended, List.getLast?_append, hlast, hd]

theorem ended_flatMap {as : List α} {f : α → List Char} (h : ∀ a ∈ as, Ended (f a)) :
    Ended (as.flatMap f) := by
  induction as with
  | nil => simp
  | cons a as ih =>
    rw [List.flatMap_cons]
    exact ended_append (h a (by simp)) (ih fun b hb => h b (by simp [hb]))

theorem clean_flatMap {as : List α} {f : α → List Char} (h : ∀ a ∈ as, Clean (f a)) :
    Clean (as.flatMap f) := by
  intro c hc
  obtain ⟨a, ha, hca⟩ := List.mem_flatMap.mp hc
  exact h a ha c hca

theorem universal_of_clean (h : Clean text) : universal text = text := by
  induction text with
  | nil => rfl
  | cons c text ih =>
    have hc : c ≠ '\r' := by
      rintro rfl
      exact absurd (h '\r' (by simp) (by decide)) (by decide)
    rw [universal, if_neg hc, ih (clean_cons.mp h).2]

theorem splitLines_eq_nil : splitLines text = [] ↔ text = [] := by
  cases text with
  | nil => simp [splitLines]
  | cons c text =>
    simp only [splitLines, reduceCtorEq, iff_false]
    split
    · simp
    · split <;> simp

theorem splitLines_append (h : Ended text) :
    splitLines (text ++ rest) = splitLines text ++ splitLines rest := by
  induction text with
  | nil => simp [splitLines]
  | cons c text ih =>
    by_cases hc : c ∈ breaks
    · have htext : Ended text := by
        cases text with
        | nil => simp
        | cons d text => simpa [Ended] using h
      simp [splitLines, hc, ih htext]
    · -- a character that ends no line is not the last
      have hne : text ≠ [] := by
        rintro rfl
        exact hc (by rw [h c (by simp)]; decide)
      have htext : Ended text := by
        obtain ⟨d, text, rfl⟩ := List.exists_cons_of_ne_nil hne
        simpa [Ended] using h
      obtain ⟨line, lines, hlines⟩ := List.exists_cons_of_ne_nil (mt splitLines_eq_nil.mp hne)
      simp [splitLines, hc, ih htext, hlines]

theorem not_break_of_mem_splitLines (hline : line ∈ splitLines text) (hc : c ∈ line) :
    c ∉ breaks := by
  induction text generalizing line with
  | nil => simp [splitLines] at hline
  | cons d text ih =>
    rw [splitLines] at hline
    split at hline
    · rcases List.mem_cons.mp hline with rfl | hmem
      · simp at hc
      · exact ih hmem hc
    · rename_i hd
      split at hline
      · obtain rfl := List.mem_singleton.mp hline
        rwa [List.mem_singleton.mp hc]
      · rename_i first lines hlines
        rcases List.mem_cons.mp hline with rfl | hmem
        · rcases List.mem_cons.mp hc with rfl | hfirst
          · exact hd
          · exact ih (hlines ▸ List.mem_cons_self) hfirst
        · exact ih (hlines ▸ List.mem_cons_of_mem _ hmem) hc

theorem splitLines_line (h : ∀ c ∈ line, c ∉ breaks) : splitLines (line ++ ['\n']) = [line] := by
  induction line with
  | nil => rfl
  | cons c line ih =>
    rw [List.cons_append, splitLines, if_neg (h c (by simp)), ih fun d hd => h d (by simp [hd])]

@[simp] theorem flat_append {more : List (List Char)} : flat (lines ++ more) = flat lines ++ flat more := by
  simp [flat]

@[simp] theorem flat_cons : flat (line :: lines) = line ++ '\n' :: flat lines := by simp [flat]

@[simp] theorem flat_nil : flat [] = [] := rfl

theorem ended_flat : Ended (flat lines) := ended_flatMap fun _ _ => ended_concat.mpr rfl

/-- A text whose lines end with `\n` is its lines. -/
theorem flat_splitLines (hclean : Clean text) (hended : Ended text) : flat (splitLines text) = text := by
  induction text with
  | nil => rfl
  | cons c text ih =>
    have htext : Ended text := by
      cases text with
      | nil => simp
      | cons d text => simpa [Ended] using hended
    obtain ⟨hc, hclean⟩ := clean_cons.mp hclean
    by_cases hbreak : c ∈ breaks
    · rw [splitLines, if_pos hbreak, flat_cons, ih hclean htext, hc hbreak, List.nil_append]
    · have hne : text ≠ [] := by
        rintro rfl
        exact hbreak (by rw [hended c (by simp)]; decide)
      obtain ⟨line, lines, hlines⟩ := List.exists_cons_of_ne_nil (mt splitLines_eq_nil.mp hne)
      have hflat := ih hclean htext
      rw [hlines, flat_cons] at hflat
      simp [splitLines, hbreak, hlines, hflat]

theorem joinLines_cons {more : List Char} :
    joinLines (line :: more :: lines) = line ++ '\n' :: joinLines (more :: lines) := by
  simp [joinLines, List.intercalate]

theorem joinLines_eq_flat (h : lines ≠ []) : joinLines lines = flat lines := by
  induction lines with
  | nil => contradiction
  | cons line lines ih =>
    cases lines with
    | nil => simp [joinLines, flat, List.intercalate]
    | cons more lines => rw [joinLines_cons, flat_cons, ih (by simp)]

theorem ended_joinLines : Ended (joinLines lines) := by simp [joinLines]

theorem clean_joinLines (h : ∀ line ∈ lines, ∀ c ∈ line, c ∉ breaks) : Clean (joinLines lines) := by
  by_cases hlines : lines = []
  · subst hlines
    exact clean_newline
  · rw [joinLines_eq_flat hlines]
    refine clean_flatMap fun line hline => ?_
    rw [clean_append]
    exact ⟨fun c hc hbreak => absurd hbreak (h line hline c hc), clean_newline⟩

theorem newline_mem (h : Ended (before ++ text)) (hne : text ≠ []) : '\n' ∈ text := by
  have hlast := h (text.getLast hne)
    (by simp [List.getLast?_append, List.getLast?_eq_some_getLast hne])
  exact hlast ▸ List.getLast_mem hne

theorem Ended.right (h : Ended (text ++ rest)) : Ended rest := by
  cases hrest : rest.getLast? with
  | none => simp [List.getLast?_eq_none_iff.mp hrest]
  | some d => simpa [Ended, List.getLast?_append, hrest] using h

theorem infix_of_concat (hneedle : '\n' ∉ needle) (hne : needle ≠ [])
    (h : needle <:+: text ++ ['\n']) : needle <:+: text := by
  rcases List.infix_concat_iff.mp h with ⟨front, hfront⟩ | h
  · have hended : Ended (front ++ needle) := hfront ▸ ended_concat.mpr rfl
    exact absurd (newline_mem hended hne) hneedle
  · exact h

/-- What has no end of a line in it is on one side of an end of a line. -/
theorem infix_of_ended (hended : Ended text) (hneedle : '\n' ∉ needle) (h : needle <:+: text ++ rest) :
    needle <:+: text ∨ needle <:+: rest := by
  rcases List.infix_append_iff_ne_nil.mp h with h | h | ⟨left, right, hleft, _, rfl, hsuffix, _⟩
  · exact Or.inl h
  · exact Or.inr h
  · obtain ⟨start, rfl⟩ := hsuffix
    exact absurd (List.mem_append_left _ (newline_mem hended hleft)) hneedle

theorem infix_flatMap {as : List α} {f : α → List Char} (hended : ∀ a ∈ as, Ended (f a))
    (hneedle : '\n' ∉ needle) (hne : needle ≠ []) (h : needle <:+: as.flatMap f) :
    ∃ a ∈ as, needle <:+: f a := by
  induction as with
  | nil => exact absurd (by simpa using h) hne
  | cons a as ih =>
    rw [List.flatMap_cons] at h
    rcases infix_of_ended (hended a (by simp)) hneedle h with ha | has
    · exact ⟨a, by simp, ha⟩
    · obtain ⟨b, hb, hfound⟩ := ih (fun b hb => hended b (by simp [hb])) has
      exact ⟨b, by simp [hb], hfound⟩

section

variable [BEq α] [LawfulBEq α] {l i p s : List α}

theorem dropInfix_go_eq_none {acc : List α} (h : List.dropInfix?.go i l acc = none) : ¬ i <:+: l := by
  induction l generalizing acc with
  | nil =>
    intro hfound
    rw [List.infix_nil] at hfound
    simp [List.dropInfix?.go, hfound] at h
  | cons a l ih =>
    rw [List.dropInfix?.go] at h
    cases hstart : (a :: l).dropPrefix? i with
    | some rest => simp [hstart] at h
    | none =>
      rw [hstart] at h
      rw [List.infix_cons_iff, not_or]
      refine ⟨?_, ih h⟩
      rintro ⟨rest, hrest⟩
      have hsome : (a :: l).dropPrefix? i = some rest :=
        List.dropPrefix?_eq_some_iff.mpr ⟨i, hrest.symm, BEq.rfl⟩
      simp [hsome] at hstart

theorem dropInfix_eq_none : l.dropInfix? i = none ↔ ¬ i <:+: l := by
  refine ⟨dropInfix_go_eq_none, fun h => ?_⟩
  cases hsome : l.dropInfix? i with
  | none => rfl
  | some q =>
    obtain ⟨⟨j, hl, hj⟩, _⟩ := List.dropInfix?_eq_some_iff.mp hsome
    exact absurd ⟨q.1, q.2, by rw [hl, eq_of_beq hj]⟩ h

/-- What is before the first place does not have it. -/
theorem of_dropInfix (hne : i ≠ []) (h : l.dropInfix? i = some (p, s)) :
    l = p ++ i ++ s ∧ ¬ i <:+: p := by
  obtain ⟨⟨j, hl, hj⟩, hfirst⟩ := List.dropInfix?_eq_some_iff.mp h
  obtain rfl := eq_of_beq hj
  refine ⟨hl, ?_⟩
  rintro ⟨start, stop, rfl⟩
  have hlen := hfirst start j (stop ++ j ++ s) (by simp [hl]) BEq.rfl
  have := List.length_pos_iff.mpr hne
  simp only [List.length_append] at hlen
  omega

end

/-- What has no end of a line in it is found where a line starts. -/
theorem dropInfix_of_ended (hended : Ended text) (hneedle : '\n' ∉ needle)
    (h : ¬ needle <:+: text) : (text ++ needle ++ rest).dropInfix? needle = some (text, rest) := by
  refine List.dropInfix?_eq_some_iff.mpr ⟨⟨needle, rfl, BEq.rfl⟩, fun start found stop hsplit hj => ?_⟩
  obtain rfl := eq_of_beq hj
  by_contra hlt
  rw [List.append_assoc, List.append_assoc, List.append_eq_append_iff] at hsplit
  rcases hsplit with ⟨more, hstart, _⟩ | ⟨more, htext, hmore⟩
  · simp [hstart] at hlt
  · -- it starts inside the text: it is all there, or it has the last character of the text
    subst htext
    rcases List.append_eq_append_iff.mp hmore.symm with ⟨extra, hfound, _⟩ | ⟨extra, hfound, _⟩
    · have hne : more ≠ [] := by
        rintro rfl
        simp at hlt
      exact hneedle (hfound ▸ List.mem_append_left _ (newline_mem hended hne))
    · exact h ⟨start, extra, by simp [hfound]⟩

section

variable (raises closes : α → Bool) (edit : α → α)

/-- One pass with a flag: a line that closes is edited if the flag is up, and leaves it down. -/
def editClosing : Bool → List α → List α
  | _, [] => []
  | flag, a :: as =>
    if (flag || raises a) && closes a then edit a :: editClosing false as
    else a :: editClosing (flag || raises a) as

/-- The flag is raised by the line or by one before it, with none between that closes. -/
def Reached (before : List α) (a : α) : Prop :=
  ∃ b ∈ a :: before.reverse.takeWhile (!closes ·), raises b

instance {before : List α} {a : α} : Decidable (Reached raises closes before a) :=
  inferInstanceAs (Decidable (∃ b ∈ a :: before.reverse.takeWhile (!closes ·), raises b))

variable {raises closes edit}

/-- The flag is up after some elements if they have a last that raises it and none closes since. -/
theorem editClosing_after {P : β → Prop} [DecidablePred P] (before : List (α × β))
    {as : List (α × β)}
    (hcloses : ∀ p ∈ as, P p.2 → closes p.1)
    (h : ∀ i, ∀ p ∈ as[i]?, closes p.1 →
      (Reached raises closes ((before ++ as.take i).map Prod.fst) p.1 ↔ P p.2)) :
    editClosing raises closes edit
        (((before.map Prod.fst).reverse.takeWhile (!closes ·)).any raises) (as.map Prod.fst) =
      as.map fun p => if P p.2 then edit p.1 else p.1 := by
  induction as generalizing before with
  | nil => rfl
  | cons p as ih =>
    have hrest : editClosing raises closes edit
        ((((before ++ [p]).map Prod.fst).reverse.takeWhile (!closes ·)).any raises)
          (as.map Prod.fst) = as.map fun p => if P p.2 then edit p.1 else p.1 := by
      refine ih (before ++ [p]) (fun q hq => hcloses q (by simp [hq])) fun i q hq hclose => ?_
      simpa using h (i + 1) q (by simpa using hq) hclose
    have hhead := h 0 p (by simp)
    simp only [List.take_zero, List.append_nil, Reached, List.mem_cons, exists_eq_or_imp] at hhead
    rw [List.map_append, List.map_singleton, List.reverse_concat, List.takeWhile_cons] at hrest
    rw [List.map_cons, List.map_cons, editClosing]
    cases hclose : closes p.1 with
    | false =>
      have hP : ¬ P p.2 := fun hp => by simp [hcloses p (by simp) hp] at hclose
      simpa [hP, hclose, Bool.or_comm] using hrest
    | true =>
      -- the flag is down after it, edited or not
      have hflag : (((before.map Prod.fst).reverse.takeWhile (!closes ·)).any raises ||
          raises p.1) = true ↔ P p.2 := by
        rw [← hhead hclose, Bool.or_eq_true, List.any_eq_true, or_comm]
      simp only [hclose, Bool.not_true, Bool.false_eq_true, if_false, List.any_nil] at hrest
      by_cases hP : P p.2
      · simp [hflag.mpr hP, hP, hrest]
      · rw [Bool.eq_false_iff.mpr (mt hflag.mp hP), if_neg hP, ← hrest]
        rfl

/-- A pass edits the lines of a kind, if those are the ones that close and are reached. -/
theorem editClosing_eq_map {P : β → Prop} [DecidablePred P] {as : List (α × β)}
    (hcloses : ∀ p ∈ as, P p.2 → closes p.1)
    (h : ∀ i, ∀ p ∈ as[i]?, closes p.1 →
      (Reached raises closes ((as.take i).map Prod.fst) p.1 ↔ P p.2)) :
    editClosing raises closes edit false (as.map Prod.fst) =
      as.map fun p => if P p.2 then edit p.1 else p.1 :=
  editClosing_after [] hcloses h

end

end TextLines
