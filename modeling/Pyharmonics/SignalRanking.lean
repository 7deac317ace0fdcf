import Pyharmonics.Library.Sorting
import Pyharmonics.SignalReturns

/-! The signal a call chooses: the strongest of the candidates that survive. -/
namespace Pyharmonics

open Sorting

variable {N : Numerics} {w : Process} {i : BuildInput} {ctx : ScoreContext} {df : Frame}
  {cs : List Candidate} {level : String} {S : Signal} {l : List Signal} {best : Option Signal}

/-- The strength of a signal: A before B before C(参考), then the score, then whether it is formed. -/
def Signal.strength (S : Signal) : ℤ ×ₗ ℤ ×ₗ Bool :=
  toLex (gradeRank S.grade, toLex (S.confluenceScore, S.formed))

/-- The signals of the candidates that pass the filter and every gate. -/
def scoreSurvivors (N : Numerics) (w : Process) (ctx : ScoreContext) (df : Frame) (level : String)
    (cs : List Candidate) : Except PyError (List Signal) := do
  let (valid, _) ← filterCandidates N w ctx.price ctx.atr df.closeTimes? cs
  scoreAll N w ctx level valid

/-- `build_signal` up to the survivors. -/
def survivors (N : Numerics) (w : Process) (i : BuildInput) : Except PyError (List Signal) := do
  require (i.stopLevel ∈ stopLevels) "stop_level must be one of conservative/standard/aggressive"
  require (0 < i.interval.length) "interval must be a non-empty string"
  match i.df with
  | none => return []
  | some df =>
    if (df.length : ℤ) < w.getTuning.minCandles ∨ i.candidates = [] then
      return []
    match df.rows.getLast? with
    | none => .error (.other "single positional indexer is out-of-bounds")
    | some last =>
      match ← prepareScoreContext N w df last i.interval i.divergences i.stopBufferAtr with
      | none => return []
      | some ctx => scoreSurvivors N w ctx df i.stopLevel i.candidates

/-- The signal chosen before the stability check. -/
def chosen (N : Numerics) (w : Process) (i : BuildInput) : Except PyError (Option Signal) :=
  (survivors N w i).map rankSignals

/-- A candidate of a call that passes the filter, and is scored in the context of its frame. -/
structure Survives (N : Numerics) (w : Process) (i : BuildInput) (c : Candidate) (S : Signal) :
    Prop where
  mem : c ∈ i.candidates
  scored : ∃ df last ctx, i.df = some df ∧ w.getTuning.minCandles ≤ df.length ∧
    df.rows.getLast? = some last ∧
    prepareScoreContext N w df last i.interval i.divergences i.stopBufferAtr = .ok (some ctx) ∧
    boundRejectionReason N w c ctx.price ctx.atr df.closeTimes? = .ok none ∧
    scoreCandidate N w ctx c i.stopLevel = .ok (some S)

/-- A call returns its choice, unless the stability check takes it back. -/
theorem buildSignal_eq_chosen : buildSignal N w i = (chosen N w i).map fun best =>
    i.df.bind fun df => applyStability w df best i.stabilityDetector := by
  have hnone : ∀ df, applyStability w df none i.stabilityDetector = none := fun _ => rfl
  unfold buildSignal chosen survivors scoreSurvivors
  cases require (i.stopLevel ∈ stopLevels)
    "stop_level must be one of conservative/standard/aggressive" with
  | error e => rfl
  | ok _ =>
    cases require (0 < i.interval.length) "interval must be a non-empty string" with
    | error e => rfl
    | ok _ =>
      simp only [ok_bind]
      cases hdf : i.df with
      | none => rfl
      | some df =>
        simp only
        split_ifs
        · rfl
        · cases df.rows.getLast? with
          | none => rfl
          | some last =>
            simp only
            cases prepareScoreContext N w df last i.interval i.divergences i.stopBufferAtr with
            | error e => rfl
            | ok ctx? =>
              cases ctx? with
              | none => rfl
              | some ctx =>
                simp only [ok_bind]
                cases filterCandidates N w ctx.price ctx.atr df.closeTimes? i.candidates with
                | error e => rfl
                | ok split =>
                  simp only [ok_bind]
                  cases scoreAll N w ctx i.stopLevel split.1 with
                  | error e => rfl
                  | ok l => rfl

/-! The survivors. -/

theorem mem_scoreAll_iff (h : scoreAll N w ctx level cs = .ok l) :
    S ∈ l ↔ ∃ c ∈ cs, scoreCandidate N w ctx c level = .ok (some S) := by
  refine ⟨mem_scoreAll h, ?_⟩
  rintro ⟨c, hc, hS⟩
  induction cs generalizing l with
  | nil => cases hc
  | cons d cs ih =>
    obtain ⟨s, hs, h⟩ := bind_ok.mp h
    obtain ⟨rest, hrest, h⟩ := bind_ok.mp h
    cases h
    rw [List.mem_append]
    rcases List.mem_cons.mp hc with rfl | hc
    · left
      obtain rfl := Except.ok.inj (hs.symm.trans hS)
      simp
    · exact Or.inr (ih hrest hc)

theorem mem_scoreSurvivors (h : scoreSurvivors N w ctx df level cs = .ok l) :
    S ∈ l ↔ ∃ c ∈ cs, boundRejectionReason N w c ctx.price ctx.atr df.closeTimes? = .ok none ∧
      scoreCandidate N w ctx c level = .ok (some S) := by
  obtain ⟨⟨valid, rejected⟩, hvalid, h⟩ := bind_ok.mp h
  rw [mem_scoreAll_iff h]
  constructor
  · rintro ⟨c, hc, hS⟩
    obtain ⟨hc, hreason⟩ := (mem_filterCandidates hvalid).mp hc
    exact ⟨c, hc, hreason, hS⟩
  · rintro ⟨c, hc, hreason, hS⟩
    exact ⟨c, (mem_filterCandidates hvalid).mpr ⟨hc, hreason⟩, hS⟩

theorem scoreSurvivors_returns_iff : Returns (scoreSurvivors N w ctx df level cs) ↔
    ∀ c ∈ cs, Returns (boundRejectionReason N w c ctx.price ctx.atr df.closeTimes?) ∧
      (boundRejectionReason N w c ctx.price ctx.atr df.closeTimes? = .ok none →
        Returns (scoreCandidate N w ctx c level)) := by
  unfold scoreSurvivors
  rw [returns_bind]
  constructor
  · rintro ⟨⟨valid, rejected⟩, hvalid, hscored⟩ c hc
    refine ⟨filterCandidates_returns_iff.mp ⟨_, hvalid⟩ c hc, ?_⟩
    intro hreason
    exact scoreAll_returns_iff.mp hscored c ((mem_filterCandidates hvalid).mpr ⟨hc, hreason⟩)
  · intro h
    obtain ⟨⟨valid, rejected⟩, hvalid⟩ := filterCandidates_returns_iff.mpr fun c hc => (h c hc).1
    refine ⟨_, hvalid, scoreAll_returns_iff.mpr ?_⟩
    intro c hc
    obtain ⟨hc, hreason⟩ := (mem_filterCandidates hvalid).mp hc
    exact (h c hc).2 hreason

theorem mem_survivors (h : survivors N w i = .ok l) : S ∈ l ↔ ∃ c, Survives N w i c S := by
  unfold survivors at h
  obtain ⟨_, -, h⟩ := bind_ok.mp h
  obtain ⟨_, -, h⟩ := bind_ok.mp h
  cases hdf : i.df with
  | none =>
    rw [hdf] at h
    cases h
    refine iff_of_false (by simp) ?_
    rintro ⟨c, -, df, last, ctx, hdf', -⟩
    rw [hdf] at hdf'
    cases hdf'
  | some df =>
    rw [hdf] at h
    simp only at h
    split_ifs at h with hearly
    · cases h
      refine iff_of_false (by simp) ?_
      rintro ⟨c, hc, df', last, ctx, hdf', hlen, -⟩
      obtain rfl : df = df' := Option.some.inj (hdf.symm.trans hdf')
      rcases hearly with hshort | hnil
      · exact absurd hlen (not_le.mpr hshort)
      · rw [hnil] at hc
        cases hc
    · obtain ⟨hlen, -⟩ := not_or.mp hearly
      cases hlast : df.rows.getLast? with
      | none => simp [hlast] at h
      | some last =>
        simp only [hlast] at h
        obtain ⟨ctx?, hctx, h⟩ := bind_ok.mp h
        cases ctx? with
        | none =>
          cases h
          refine iff_of_false (by simp) ?_
          rintro ⟨c, -, df', last', ctx, hdf', -, hlast', hctx', -⟩
          obtain rfl : df = df' := Option.some.inj (hdf.symm.trans hdf')
          obtain rfl : last = last' := Option.some.inj (hlast.symm.trans hlast')
          rw [hctx] at hctx'
          cases hctx'
        | some ctx =>
          rw [mem_scoreSurvivors h]
          constructor
          · rintro ⟨c, hc, hreason, hS⟩
            exact ⟨c, hc, df, last, ctx, hdf, not_lt.mp hlen, hlast, hctx, hreason, hS⟩
          · rintro ⟨c, hc, df', last', ctx', hdf', -, hlast', hctx', hreason, hS⟩
            obtain rfl : df = df' := Option.some.inj (hdf.symm.trans hdf')
            obtain rfl : last = last' := Option.some.inj (hlast.symm.trans hlast')
            obtain rfl : ctx = ctx' := Option.some.inj (Except.ok.inj (hctx.symm.trans hctx'))
            exact ⟨c, hc, hreason, hS⟩

/-- A call returns for one order of the candidates when it returns for another. -/
theorem survivors_returns_perm (hp : cs.Perm i.candidates) (h : Returns (survivors N w i)) :
    Returns (survivors N w { i with candidates := cs }) := by
  have hnil : cs = [] ↔ i.candidates = [] := by
    rw [← List.length_eq_zero_iff, ← List.length_eq_zero_iff, hp.length_eq]
  unfold survivors at h ⊢
  rw [returns_require] at h ⊢
  refine ⟨h.1, ?_⟩
  have h := h.2
  rw [returns_require] at h ⊢
  refine ⟨h.1, ?_⟩
  have h := h.2
  simp only at h ⊢
  cases hdf : i.df with
  | none => exact returns_pure
  | some df =>
    rw [hdf] at h
    simp only [hnil] at h ⊢
    split_ifs at h ⊢
    · exact returns_pure
    · cases hlast : df.rows.getLast? with
      | none => simp [hlast] at h
      | some last =>
        simp only [hlast] at h ⊢
        rw [returns_bind] at h ⊢
        obtain ⟨ctx?, hctx, h⟩ := h
        refine ⟨ctx?, hctx, ?_⟩
        cases ctx? with
        | none => exact returns_pure
        | some ctx =>
          refine scoreSurvivors_returns_iff.mpr fun c hc => ?_
          exact scoreSurvivors_returns_iff.mp h c (hp.mem_iff.mp hc)

theorem survives_perm (hp : cs.Perm i.candidates) {c : Candidate} :
    Survives N w { i with candidates := cs } c S ↔ Survives N w i c S := by
  constructor
  · rintro ⟨hc, h⟩
    exact ⟨hp.mem_iff.mp hc, h⟩
  · rintro ⟨hc, h⟩
    exact ⟨hp.mem_iff.mpr hc, h⟩

/-! The choice. -/

theorem rankBelow_iff {s : Signal} : rankBelow S.rank s.rank = true ↔ S.strength < s.strength := by
  unfold rankBelow Signal.rank Signal.strength
  rw [Prod.Lex.toLex_lt_toLex, Prod.Lex.toLex_lt_toLex, Bool.lt_iff, Bool.or_eq_true,
    Bool.and_eq_true, Bool.or_eq_true, Bool.and_eq_true, Bool.and_eq_true, Bool.not_eq_true',
    decide_eq_true_iff, decide_eq_true_iff, decide_eq_true_iff, decide_eq_true_iff]

theorem rankLoop_eq (best : Signal) (l : List Signal) : rankLoop (some best) best.rank l =
    l.foldl (List.argAux fun s t => t.strength < s.strength) (some best) := by
  induction l generalizing best with
  | nil => rfl
  | cons s l ih =>
    rw [rankLoop, List.foldl_cons]
    by_cases h : best.strength < s.strength
    · rw [if_pos (rankBelow_iff.mpr h), ih s]
      simp [List.argAux, h]
    · rw [if_neg fun hb => h (rankBelow_iff.mp hb), ih best]
      simp [List.argAux, h]

/-- The start rank lies below every grade, so the loop finds the first of the strongest. -/
theorem rankSignals_eq_argmax (l : List Signal) : rankSignals l = l.argmax Signal.strength := by
  cases l with
  | nil => rfl
  | cons s l =>
    have hstart : rankBelow (-1, -1, false) s.rank = true := by
      have : (-1 : ℤ) < gradeRank s.grade := by cases s.grade <;> decide
      simp [rankBelow, Signal.rank, this]
    rw [rankSignals, rankLoop, if_pos hstart, rankLoop_eq]
    rfl

/-- The choice is a survivor none of the others beats, there is none exactly when nothing survives,
and its strength does not depend on the order of the candidates. -/
theorem chosen_strongest (h : chosen N w i = .ok best) :
    (∀ S, best = some S → (∃ c, Survives N w i c S) ∧
      ∀ c' S', Survives N w i c' S' → S'.strength ≤ S.strength) ∧
    (best = none ↔ ¬ ∃ c S, Survives N w i c S) ∧
    ∀ cs, cs.Perm i.candidates → ∃ best', chosen N w { i with candidates := cs } = .ok best' ∧
      best'.map Signal.strength = best.map Signal.strength := by
  cases hl : survivors N w i with
  | error e =>
    rw [chosen, hl] at h
    cases h
  | ok l =>
    rw [chosen, hl] at h
    obtain rfl : rankSignals l = best := Except.ok.inj h
    rw [rankSignals_eq_argmax]
    refine ⟨?_, ?_, ?_⟩
    · intro S hS
      refine ⟨(mem_survivors hl).mp (List.argmax_mem hS), ?_⟩
      intro c' S' hS'
      exact List.le_of_mem_argmax ((mem_survivors hl).mpr ⟨c', hS'⟩) hS
    · rw [List.argmax_eq_none, List.eq_nil_iff_forall_not_mem, ← not_iff_not, not_not]
      simp only [not_forall, not_not, mem_survivors hl]
      exact exists_comm
    · intro cs hp
      obtain ⟨l', hl'⟩ := survivors_returns_perm hp ⟨l, hl⟩
      refine ⟨rankSignals l', by rw [chosen, hl']; rfl, ?_⟩
      rw [rankSignals_eq_argmax]
      refine argmax_map_congr fun S => ?_
      rw [mem_survivors hl', mem_survivors hl]
      exact exists_congr fun c => survives_perm hp

theorem alternating_chosen_view : (chosen plainNumerics defaultProcess
    { alternatingInput with candidates := [gartley, gartley] }).toOption.join.map
      Signal.grade = some .b := by
  decide +kernel

/-- Of two equal candidates of the alternating market one is chosen, and none beats it. -/
theorem alternating_chosen : ∃ S, chosen plainNumerics defaultProcess
    { alternatingInput with candidates := [gartley, gartley] } = .ok (some S) ∧
      ∀ c' S', Survives plainNumerics defaultProcess
        { alternatingInput with candidates := [gartley, gartley] } c' S' →
          S'.strength ≤ S.strength := by
  obtain ⟨S, hS, -⟩ := exists_of_view alternating_chosen_view
  exact ⟨S, hS, ((chosen_strongest hS).1 S rfl).2⟩

end Pyharmonics
