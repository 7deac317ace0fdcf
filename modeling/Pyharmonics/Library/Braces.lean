import Mathlib.Tactic

/-! Nested pieces of a text between two marks, which do not count inside quotes or after an escape. -/
namespace Braces

variable {α : Type*}

/-- The marks that a scan looks at. -/
structure Marks (α : Type*) where
  opening : α
  closing : α
  quote : α
  escape : α
  nodup : [opening, closing, quote, escape].Nodup

/-- Where a scan is: the open pieces, and how the next character is read. -/
structure Scan where
  depth : ℕ := 0
  inString : Bool := false
  escaped : Bool := false
  deriving DecidableEq

namespace Marks

def all (m : Marks α) : List α := [m.opening, m.closing, m.quote, m.escape]

/-- A quoted text after its first quote. -/
inductive Quoted (m : Marks α) : List α → Prop
  | quote : Quoted m [m.quote]
  | escaped (c : α) {text : List α} : Quoted m text → Quoted m (m.escape :: c :: text)
  | plain {c : α} {text : List α} : c ≠ m.quote → c ≠ m.escape → Quoted m text →
      Quoted m (c :: text)

/-- A text whose quotes and pieces are all closed. -/
inductive Balanced (m : Marks α) : List α → Prop
  | nil : Balanced m []
  | plain {c : α} {text : List α} : c ∉ m.all → Balanced m text → Balanced m (c :: text)
  | escaped (c : α) {text : List α} : Balanced m text → Balanced m (m.escape :: c :: text)
  | quoted {q text : List α} : Quoted m q → Balanced m text → Balanced m (m.quote :: (q ++ text))
  | nested {body text : List α} : Balanced m body → Balanced m text →
      Balanced m (m.opening :: (body ++ m.closing :: text))

/-- A piece with its marks. -/
def Object (m : Marks α) (text : List α) : Prop :=
  ∃ body, Balanced m body ∧ text = m.opening :: (body ++ [m.closing])

/-- The pieces of a text, each taken where it begins; none begins between them. -/
inductive Extracts (m : Marks α) : List α → List (List α) → Prop
  | nil : Extracts m [] []
  | skip {c : α} {text : List α} {objects : List (List α)} :
      (∀ object, Object m object → ¬ object <+: c :: text) →
      Extracts m text objects → Extracts m (c :: text) objects
  | take {object text : List α} {objects : List (List α)} : Object m object →
      Extracts m text objects → Extracts m (object ++ text) (object :: objects)

/-- What the rest of a scan gives, after a front of it. -/
def after (front : List α) : Option (List α × List α) → Option (List α × List α) :=
  Option.map fun (object, rest) => (front ++ object, rest)

variable {m : Marks α} {c : α} {d : ℕ} {b : Bool} {text front rest body q object : List α}
  {objects : List (List α)} {r : Option (List α × List α)} {p : List α × List α}

@[simp] theorem after_nil : after [] r = r := by
  cases r <;> simp [after]

@[simp] theorem after_none : after front none = none := rfl

@[simp] theorem after_some : after front (some p) = some (front ++ p.1, p.2) := rfl

@[simp] theorem after_after : after front (after body r) = after (front ++ body) r := by
  cases r <;> simp [after]

theorem after_eq_some : after front r = some p ↔ ∃ o, r = some (o, p.2) ∧ p.1 = front ++ o := by
  obtain ⟨object, rest⟩ := p
  cases r with
  | none => simp
  | some r =>
    obtain ⟨o, rest'⟩ := r
    simp [after]
    tauto

/-- The marks differ from each other. -/
theorem marks_ne (m : Marks α) : m.opening ≠ m.closing ∧ m.opening ≠ m.quote ∧
    m.opening ≠ m.escape ∧ m.closing ≠ m.quote ∧ m.closing ≠ m.escape ∧ m.quote ≠ m.escape := by
  have h := m.nodup
  simp only [List.nodup_cons, List.mem_cons, not_or] at h
  tauto

theorem not_mem_all : c ∉ m.all ↔
    c ≠ m.opening ∧ c ≠ m.closing ∧ c ≠ m.quote ∧ c ≠ m.escape := by
  simp [all]

theorem Balanced.append (hbody : Balanced m body) (htext : Balanced m text) :
    Balanced m (body ++ text) := by
  induction hbody with
  | nil => exact htext
  | plain hc _ ih => exact .plain hc ih
  | escaped c _ ih => exact .escaped c ih
  | quoted hq _ ih => simpa using Balanced.quoted hq ih
  | nested hbody _ _ ih => simpa using Balanced.nested hbody ih

theorem Balanced.of_plain (h : ∀ c ∈ text, c ∉ m.all) : Balanced m text := by
  induction text with
  | nil => exact .nil
  | cons c text ih => exact .plain (h c (by simp)) (ih fun d hd => h d (by simp [hd]))

theorem Object.balanced (h : Object m object) : Balanced m object := by
  obtain ⟨body, hbody, rfl⟩ := h
  exact .nested hbody .nil

variable [DecidableEq α]

def read (m : Marks α) (s : Scan) (c : α) : Scan :=
  if s.escaped then { s with escaped := false }
  else if c = m.escape then { s with escaped := true }
  else if c = m.quote then { s with inString := !s.inString }
  else if s.inString then s
  else if c = m.opening then { s with depth := s.depth + 1 }
  else if c = m.closing then { s with depth := s.depth - 1 }
  else s

/-- The character closes the last open piece. -/
def ends (m : Marks α) (s : Scan) (c : α) : Bool :=
  !s.escaped && !s.inString && c == m.closing && s.depth == 1

/-- What is read until all pieces are closed, and what is left. -/
def close (m : Marks α) : Scan → List α → Option (List α × List α)
  | _, [] => none
  | s, c :: text =>
    if m.ends s c then some ([c], text) else after [c] (close m (m.read s c) text)

/-- The pieces of a text from left to right, after its first `skip` characters. -/
def extract (m : Marks α) : ℕ → List α → List (List α)
  | _, [] => []
  | skip + 1, _ :: text => extract m skip text
  | 0, c :: text =>
    if c = m.opening then
      match close m {} (c :: text) with
      | some (object, _) => object :: extract m (object.length - 1) text
      | none => extract m 0 text
    else extract m 0 text

@[simp] theorem close_nil {s : Scan} : close m s [] = none := rfl

theorem close_cons {s : Scan} (h : m.ends s c = false) :
    close m s (c :: text) = after [c] (close m (m.read s c) text) := by
  simp [close, h]

/-- After an escape the next character is read over. -/
theorem close_escape : close m ⟨d, b, false⟩ (m.escape :: c :: text) =
    after [m.escape, c] (close m ⟨d, b, false⟩ text) := by
  obtain ⟨-, -, -, -, hclosing, -⟩ := marks_ne m
  rw [close_cons (by simp [ends, hclosing.symm]), close_cons (by simp [ends, read])]
  simp [read]

theorem close_quote : close m ⟨d, b, false⟩ (m.quote :: text) =
    after [m.quote] (close m ⟨d, !b, false⟩ text) := by
  obtain ⟨-, -, -, hclosing, -, hescape⟩ := marks_ne m
  rw [close_cons (by simp [ends, hclosing.symm])]
  simp [read, hescape]

theorem close_inString (hquote : c ≠ m.quote) (hescape : c ≠ m.escape) :
    close m ⟨d, true, false⟩ (c :: text) = after [c] (close m ⟨d, true, false⟩ text) := by
  rw [close_cons (by simp [ends])]
  simp [read, hquote, hescape]

theorem close_plain (hc : c ∉ m.all) :
    close m ⟨d, false, false⟩ (c :: text) = after [c] (close m ⟨d, false, false⟩ text) := by
  obtain ⟨hopening, hclosing, hquote, hescape⟩ := not_mem_all.mp hc
  rw [close_cons (by simp [ends, hclosing])]
  simp [read, hopening, hclosing, hquote, hescape]

theorem close_opening : close m ⟨d, false, false⟩ (m.opening :: text) =
    after [m.opening] (close m ⟨d + 1, false, false⟩ text) := by
  obtain ⟨hclosing, hquote, hescape, -⟩ := marks_ne m
  rw [close_cons (by simp [ends, hclosing])]
  simp [read, hquote, hescape]

theorem close_last : close m ⟨1, false, false⟩ (m.closing :: text) = some ([m.closing], text) := by
  simp [close, ends]

theorem close_closing : close m ⟨d + 2, false, false⟩ (m.closing :: text) =
    after [m.closing] (close m ⟨d + 1, false, false⟩ text) := by
  obtain ⟨hopening, -, -, hquote, hescape, -⟩ := marks_ne m
  rw [close_cons (by simp [ends])]
  simp [read, hopening.symm, hquote, hescape]

/-- A quoted text is read to its end. -/
theorem close_quoted (h : Quoted m q) :
    close m ⟨d, true, false⟩ (q ++ text) = after q (close m ⟨d, false, false⟩ text) := by
  induction h with
  | quote => exact close_quote
  | escaped c _ ih => rw [List.cons_append, List.cons_append, close_escape, ih]; simp
  | plain hquote hescape _ ih => rw [List.cons_append, close_inString hquote hescape, ih]; simp

/-- A balanced text is read at any depth, and the depth is as before. -/
theorem close_balanced (h : Balanced m body) :
    close m ⟨d + 1, false, false⟩ (body ++ text) =
      after body (close m ⟨d + 1, false, false⟩ text) := by
  induction h generalizing d text with
  | nil => simp
  | plain hc _ ih => rw [List.cons_append, close_plain hc, ih]; simp
  | escaped c _ ih => rw [List.cons_append, List.cons_append, close_escape, ih]; simp
  | quoted hq _ ih =>
    rw [List.cons_append, close_quote, List.append_assoc, Bool.not_false, close_quoted hq, ih]
    simp
  | nested _ _ ihbody ih =>
    rw [List.cons_append, close_opening, List.append_assoc, ihbody, List.cons_append,
      close_closing, ih]
    simp

/-- A scan that ends has passed the end of the quoted text it is in. -/
theorem exists_quoted (h : (close m ⟨d, true, false⟩ text).isSome) :
    ∃ q tail, Quoted m q ∧ text = q ++ tail := by
  induction hn : text.length using Nat.strong_induction_on generalizing text with
  | _ n ih =>
  cases text with
  | nil => simp at h
  | cons c text =>
    by_cases hescape : c = m.escape
    · subst hescape
      cases text with
      | nil => rw [close_cons (by simp [ends])] at h; simp at h
      | cons c text =>
        rw [close_escape] at h
        obtain ⟨q, tail, hq, rfl⟩ :=
          ih text.length (by simp [← hn]) (by simpa [after] using h) rfl
        exact ⟨_, tail, .escaped c hq, rfl⟩
    by_cases hquote : c = m.quote
    · exact ⟨[m.quote], text, .quote, by simp [hquote]⟩
    · rw [close_inString hquote hescape] at h
      obtain ⟨q, tail, hq, rfl⟩ := ih text.length (by simp [← hn]) (by simpa [after] using h) rfl
      exact ⟨_, tail, .plain hquote hescape hq, rfl⟩

/-- A scan that ends has passed the end of the piece it is in. -/
theorem exists_balanced (h : (close m ⟨d + 1, false, false⟩ text).isSome) :
    ∃ body tail, Balanced m body ∧ text = body ++ m.closing :: tail := by
  induction hn : text.length using Nat.strong_induction_on generalizing text d with
  | _ n ih =>
  cases text with
  | nil => simp at h
  | cons c text =>
    by_cases hescape : c = m.escape
    · subst hescape
      cases text with
      | nil =>
        obtain ⟨-, -, -, -, hclosing, -⟩ := marks_ne m
        rw [close_cons (by simp [ends, hclosing.symm])] at h
        simp at h
      | cons c text =>
        rw [close_escape] at h
        obtain ⟨body, tail, hbody, rfl⟩ :=
          ih text.length (by simp [← hn]) (by simpa [after] using h) rfl
        exact ⟨_, tail, .escaped c hbody, rfl⟩
    by_cases hquote : c = m.quote
    · subst hquote
      rw [close_quote] at h
      have hin : (close m ⟨d + 1, true, false⟩ text).isSome := by simpa [after] using h
      obtain ⟨q, tail, hq, rfl⟩ := exists_quoted hin
      rw [close_quoted hq] at hin
      obtain ⟨body, tail, hbody, rfl⟩ :=
        ih tail.length (by simp [← hn]) (by simpa [after] using hin) rfl
      exact ⟨_, tail, .quoted hq hbody, by simp⟩
    by_cases hopening : c = m.opening
    · subst hopening
      rw [close_opening] at h
      have hin : (close m ⟨d + 2, false, false⟩ text).isSome := by simpa [after] using h
      obtain ⟨body, tail, hbody, rfl⟩ := ih text.length (by simp [← hn]) hin rfl
      -- the rest after the inner piece is read at the depth of the outer one
      rw [close_balanced hbody, close_closing] at hin
      obtain ⟨body', tail, hbody', rfl⟩ :=
        ih tail.length (by simp [← hn]; omega) (by simpa [after] using hin) rfl
      exact ⟨_, tail, .nested hbody hbody', by simp⟩
    by_cases hclosing : c = m.closing
    · exact ⟨[], text, .nil, by simp [hclosing]⟩
    · have hc : c ∉ m.all := not_mem_all.mpr ⟨hopening, hclosing, hquote, hescape⟩
      rw [close_plain hc] at h
      obtain ⟨body, tail, hbody, rfl⟩ :=
        ih text.length (by simp [← hn]) (by simpa [after] using h) rfl
      exact ⟨_, tail, .plain hc hbody, rfl⟩

theorem close_object (h : Object m object) : close m {} (object ++ rest) = some (object, rest) := by
  obtain ⟨body, hbody, rfl⟩ := h
  rw [List.cons_append, close_opening, List.append_assoc, close_balanced hbody, List.singleton_append,
    close_last]
  simp

/-- A scan from an opening mark ends exactly behind the piece that begins there. -/
theorem close_eq_some : close m {} (m.opening :: text) = some (object, rest) ↔
    Object m object ∧ m.opening :: text = object ++ rest := by
  constructor
  · intro h
    have hin : (close m ⟨1, false, false⟩ text).isSome := by
      rw [close_opening, after_eq_some] at h
      obtain ⟨o, ho, -⟩ := h
      simp [ho]
    obtain ⟨body, tail, hbody, rfl⟩ := exists_balanced hin
    have hobject : Object m (m.opening :: (body ++ [m.closing])) := ⟨body, hbody, rfl⟩
    have hclose : close m {} (m.opening :: (body ++ m.closing :: tail)) =
        some (m.opening :: (body ++ [m.closing]), tail) := by
      simpa using close_object hobject
    obtain ⟨rfl, rfl⟩ : _ ∧ tail = rest := by simpa [h] using hclose.symm
    exact ⟨by simpa using hobject, by simp⟩
  · rintro ⟨hobject, htext⟩
    rw [htext]
    exact close_object hobject

/-- No piece is the beginning of another. -/
theorem Object.eq_of_prefix (hobject : Object m object) (hbody : Object m body)
    (h : object <+: body) : object = body := by
  obtain ⟨rest, rfl⟩ := h
  have hclose : close m {} (object ++ rest ++ []) = some (object ++ rest, []) := close_object hbody
  rw [List.append_assoc, close_object hobject] at hclose
  simpa using hclose

@[simp] theorem extract_nil {n : ℕ} : extract m n [] = [] := by cases n <;> rfl

theorem extract_skip : extract m front.length (front ++ text) = extract m 0 text := by
  induction front with
  | nil => rfl
  | cons c front ih => simpa [extract] using ih

theorem extract_object (h : Object m object) :
    extract m 0 (object ++ text) = object :: extract m 0 text := by
  have hclose : close m {} (object ++ text) = some (object, text) := close_object h
  obtain ⟨body, -, rfl⟩ := h
  have hskip : extract m (body ++ [m.closing]).length (body ++ [m.closing] ++ text) =
      extract m 0 text := extract_skip
  rw [List.cons_append] at hclose ⊢
  rw [extract, if_pos rfl, hclose]
  simpa using hskip

theorem extract_of_none (h : ∀ object, Object m object → ¬ object <+: c :: text) :
    extract m 0 (c :: text) = extract m 0 text := by
  rw [extract]
  by_cases hc : c = m.opening
  · subst hc
    rw [if_pos rfl]
    cases hclose : close m {} (m.opening :: text) with
    | none => rfl
    | some p =>
      obtain ⟨hobject, htext⟩ := close_eq_some.mp hclose
      exact absurd ⟨p.2, htext.symm⟩ (h p.1 hobject)
  · rw [if_neg hc]

/-- A front without an opening mark holds no piece. -/
theorem extract_gap (h : m.opening ∉ front) : extract m 0 (front ++ text) = extract m 0 text := by
  induction front with
  | nil => simp
  | cons c front ih =>
    rw [List.mem_cons, not_or] at h
    rw [List.cons_append, extract_of_none, ih h.2]
    rintro object ⟨body, -, rfl⟩ hpre
    exact h.1 (List.cons_prefix_cons.mp hpre).1

theorem extract_of_extracts (h : Extracts m text objects) : extract m 0 text = objects := by
  induction h with
  | nil => rfl
  | skip hc _ ih => rw [extract_of_none hc, ih]
  | take hobject _ ih => rw [extract_object hobject, ih]

theorem extracts_extract : Extracts m text (extract m 0 text) := by
  induction hn : text.length using Nat.strong_induction_on generalizing text with
  | _ n ih =>
  cases text with
  | nil => exact .nil
  | cons c text =>
    by_cases h : ∃ object, Object m object ∧ object <+: c :: text
    · obtain ⟨object, hobject, rest, hrest⟩ := h
      have hlt : rest.length < n := by
        obtain ⟨body, -, rfl⟩ := hobject
        simp [← hn, ← hrest]
        omega
      rw [← hrest, extract_object hobject]
      exact .take hobject (ih rest.length hlt rfl)
    · push Not at h
      rw [extract_of_none h]
      exact .skip h (ih text.length (by simp [← hn]) rfl)

/-- The scan finds exactly the pieces of the text. -/
theorem extract_eq_iff : extract m 0 text = objects ↔ Extracts m text objects :=
  ⟨fun h => h ▸ extracts_extract, extract_of_extracts⟩

omit [DecidableEq α] in
/-- A piece ends with a closing mark. -/
theorem Object.closing_mem (h : Object m (front ++ rest)) (hrest : rest ≠ []) :
    m.closing ∈ rest := by
  obtain ⟨body, -, hbody⟩ := h
  have hlast : (front ++ rest).getLast? = some m.closing := by
    rw [hbody, ← List.cons_append, List.getLast?_concat]
  rw [List.getLast?_append_of_ne_nil _ hrest] at hlast
  exact List.mem_of_getLast? hlast

omit [DecidableEq α] in
theorem Extracts.eq_nil (h : Extracts m text objects) (htext : m.closing ∉ text) :
    objects = [] := by
  induction h with
  | nil => rfl
  | skip _ _ ih => exact ih fun hmem => htext (by simp [hmem])
  | take hobject _ _ =>
    obtain ⟨body, -, rfl⟩ := hobject
    simp at htext

omit [DecidableEq α] in
/-- What follows without a closing mark ends no piece. -/
theorem Extracts.of_append (h : Extracts m text objects) (htext : text = front ++ rest)
    (hrest : m.closing ∉ rest) : Extracts m front objects := by
  induction h generalizing front with
  | nil =>
    obtain ⟨rfl, -⟩ := List.append_eq_nil_iff.mp htext.symm
    exact .nil
  | @skip c text objects hc h ih =>
    cases front with
    | nil =>
      rw [List.nil_append] at htext
      rw [Extracts.eq_nil h fun hmem => hrest (htext ▸ List.mem_cons_of_mem c hmem)]
      exact .nil
    | cons c' front =>
      obtain ⟨rfl, rfl⟩ : c = c' ∧ text = front ++ rest := by simpa using htext
      exact .skip (fun object hobject hpre => hc object hobject
        (hpre.trans (List.prefix_append (c :: front) rest))) (ih rfl)
  | @take object text objects hobject h ih =>
    obtain ⟨between, rfl, htail⟩ | ⟨between, rfl, rfl⟩ := List.append_eq_append_iff.mp htext
    · exact .take hobject (ih htail)
    · -- the object would end in what follows
      by_cases hbetween : between = []
      · subst hbetween
        rw [List.append_nil] at hobject ⊢
        rw [Extracts.eq_nil h (by simpa using hrest)]
        simpa using Extracts.take hobject .nil
      · exact absurd (Object.closing_mem hobject hbetween) fun hmem => hrest (by simp [hmem])

theorem extract_append_of_not_mem (h : m.closing ∉ rest) :
    extract m 0 (front ++ rest) = extract m 0 front :=
  (extract_of_extracts (extracts_extract.of_append rfl h)).symm

/-- Pieces with text between them that opens none. -/
theorem extract_flatMap {parts : List (List α × List α)} {tail : List α}
    (h : ∀ part ∈ parts, m.opening ∉ part.1 ∧ Object m part.2) (htail : m.opening ∉ tail) :
    extract m 0 (parts.flatMap (fun part => part.1 ++ part.2) ++ tail) = parts.map Prod.snd := by
  induction parts with
  | nil =>
    have hgap : extract m 0 (tail ++ []) = extract m 0 [] := extract_gap htail
    simpa using hgap
  | cons part parts ih =>
    obtain ⟨hgap, hobject⟩ := h part (by simp)
    rw [List.flatMap_cons, List.append_assoc, List.append_assoc, extract_gap hgap,
      extract_object hobject, ih fun q hq => h q (by simp [hq]), List.map_cons]

end Marks

end Braces
