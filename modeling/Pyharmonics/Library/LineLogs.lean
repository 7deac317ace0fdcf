import Pyharmonics.Library.TextLines

/-! Texts of one record a line. -/
namespace TextLines

variable {line text rest : List Char} {lines : List (List Char)}

/-- No line ends in it. -/
def Unbroken (line : List Char) : Prop := ∀ c ∈ line, c ∉ breaks

-- over the line, not over all characters
instance : Decidable (Unbroken line) := List.decidableBAll (fun c => c ∉ breaks) line

theorem Unbroken.clean (h : Unbroken line) : Clean line := fun c hc hbreak => absurd hbreak (h c hc)

theorem clean_flat (h : ∀ line ∈ lines, Unbroken line) : Clean (flat lines) :=
  clean_flatMap fun line hline => clean_append.mpr ⟨(h line hline).clean, clean_newline⟩

theorem splitLines_unbroken (h : Unbroken line) (hne : line ≠ []) : splitLines line = [line] := by
  induction line with
  | nil => exact absurd rfl hne
  | cons c line ih =>
    rw [splitLines, if_neg (h c (by simp))]
    cases line with
    | nil => rfl
    | cons d line => rw [ih (fun e he => h e (by simp [he])) (by simp)]

/-- The lines of a log come back, with those of what follows it. -/
theorem splitLines_flat_append (h : ∀ line ∈ lines, Unbroken line) :
    splitLines (flat lines ++ text) = lines ++ splitLines text := by
  induction lines with
  | nil => rfl
  | cons line lines ih =>
    have hline : flat (line :: lines) ++ text = line ++ ['\n'] ++ (flat lines ++ text) := by simp
    rw [hline, splitLines_append (ended_concat.mpr rfl), splitLines_line (h line (by simp)),
      ih fun l hl => h l (by simp [hl])]
    rfl

theorem splitLines_flat (h : ∀ line ∈ lines, Unbroken line) : splitLines (flat lines) = lines := by
  have hall : splitLines (flat lines ++ []) = lines ++ splitLines [] := splitLines_flat_append h
  simpa [splitLines] using hall

theorem exists_universal_concat : ∃ front, universal (text ++ ['\n']) = front ++ ['\n'] := by
  induction text with
  | nil => exact ⟨[], rfl⟩
  | cons c text ih =>
    obtain ⟨front, hfront⟩ := ih
    rw [List.cons_append, universal, hfront]
    split_ifs
    · exact ⟨front, rfl⟩
    · exact ⟨'\n' :: front, rfl⟩
    · exact ⟨c :: front, rfl⟩

theorem ended_universal (h : Ended text) : Ended (universal text) := by
  obtain rfl | ⟨front, c, rfl⟩ := text.eq_nil_or_concat'
  · exact h
  · obtain rfl := ended_concat.mp h
    obtain ⟨front', hfront⟩ : ∃ front', universal (front ++ ['\n']) = front' ++ ['\n'] :=
      exists_universal_concat
    rw [hfront]
    exact ended_concat.mpr rfl

/-- Whole lines are read apart from what follows them. -/
theorem universal_append (h : Ended text) :
    universal (text ++ rest) = universal text ++ universal rest := by
  induction text with
  | nil => rfl
  | cons c text ih =>
    cases text with
    | nil =>
      obtain rfl : c = '\n' := h c rfl
      rfl
    | cons d text =>
      have htext : Ended (d :: text) := fun e he => h e (by simpa using he)
      have hhead : (d :: text ++ rest).head? = (d :: text).head? := rfl
      rw [List.cons_append, universal, universal, ih htext, hhead]
      split_ifs <;> rfl

/-- Joined lines come back when the last is not empty. -/
theorem splitLines_intercalate (h : ∀ line ∈ lines, Unbroken line)
    (hlast : ∀ line ∈ lines.getLast?, line ≠ []) :
    splitLines (['\n'].intercalate lines) = lines := by
  induction lines with
  | nil => rfl
  | cons line lines ih =>
    cases lines with
    | nil =>
      have hone : ['\n'].intercalate [line] = line := by simp [List.intercalate]
      rw [hone, splitLines_unbroken (h line (by simp)) (hlast line (by simp))]
    | cons more lines =>
      have hcons : ['\n'].intercalate (line :: more :: lines) =
          line ++ ['\n'] ++ ['\n'].intercalate (more :: lines) := by simp [List.intercalate]
      rw [hcons, splitLines_append (ended_concat.mpr rfl), splitLines_line (h line (by simp)),
        ih (fun l hl => h l (by simp [hl])) (by simpa using hlast)]
      rfl

theorem exists_intercalate_cons : ∃ rest, ['\n'].intercalate (line :: lines) = line ++ rest := by
  cases lines with
  | nil => exact ⟨[], by simp⟩
  | cons more lines => exact ⟨_, by rw [List.intercalate_cons_cons, List.append_assoc]⟩

theorem exists_intercalate_concat :
    ∃ front, ['\n'].intercalate (lines ++ [line]) = front ++ line := by
  induction lines with
  | nil => exact ⟨[], by simp⟩
  | cons first lines ih =>
    obtain ⟨front, hfront⟩ := ih
    obtain ⟨more, rest, hmore⟩ := List.exists_cons_of_ne_nil (l := lines ++ [line]) (by simp)
    rw [List.cons_append, hmore, List.intercalate_cons_cons, ← hmore, hfront]
    exact ⟨first ++ ['\n'] ++ front, by simp⟩

theorem clean_intercalate (h : ∀ line ∈ lines, Unbroken line) :
    Clean (['\n'].intercalate lines) := by
  have hjoin : Clean (['\n'].intercalate lines ++ ['\n']) := clean_joinLines h
  exact (clean_append.mp hjoin).1

end TextLines
