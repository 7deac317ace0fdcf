import Pyharmonics.DriverPlaces

/-! What the front, the snapshots and `STATE.md` say after runs of the driver. -/
namespace Pyharmonics.Loop

open Machines

variable {τ : Type} {W : Workers τ} {root : String} {j : Job τ} {js : List (Job τ)}
  {placed more : List (String × RunDir)} {b : Batch} {bytes : HistoryRecord → ℕ}
  {st next : LoopState} {p : ParetoPoint ℚ} {snapshots : Dict String String} {ids : List String}
  {r : DriverRun τ} {tree : Tree} {runs : List (DriverRun τ)}

/-- The point has its run directory and a snapshot, each with the file of a tuning of its hash. -/
structure Saved (W : Workers τ) (placed : List (String × RunDir)) (snapshots : Dict String String)
    (p : ParetoPoint ℚ) : Prop where
  run : ∃ t, W.paramsSha t = p.paramsSha ∧ (p.runDir, ⟨some (W.tuningYaml t)⟩) ∈ placed
  snapshot : ∃ t, W.paramsSha t = p.paramsSha ∧
    snapshots.get? (snapshotName p.paramsSha) = some (W.tuningYaml t)

theorem snapshotName_inj {sha sha' : String} (h : snapshotName sha = snapshotName sha') :
    sha = sha' := by
  apply String.toList_injective
  have hlist := congrArg String.toList h
  simpa [snapshotName] using hlist

theorem Saved.mono (h : Saved W placed snapshots p) : Saved W (placed ++ more) snapshots p := by
  obtain ⟨t, hsha, hmem⟩ := h.run
  exact ⟨⟨t, hsha, List.mem_append_left _ hmem⟩, h.snapshot⟩

/-- A snapshot is overwritten by one of the same hash only. -/
theorem Saved.set (h : Saved W placed snapshots p) (t : τ) :
    Saved W placed (snapshots.set (snapshotName (W.paramsSha t)) (W.tuningYaml t)) p := by
  refine ⟨h.run, ?_⟩
  by_cases hname : snapshotName p.paramsSha = snapshotName (W.paramsSha t)
  · refine ⟨t, (snapshotName_inj hname).symm, ?_⟩
    rw [Dict.get?_set, if_pos hname]
  · obtain ⟨u, hsha, hget⟩ := h.snapshot
    refine ⟨u, hsha, ?_⟩
    rw [Dict.get?_set, if_neg hname, hget]

/-- The points of the stored front and of the one in memory are saved. -/
def FrontSaved (W : Workers τ) (placed : List (String × RunDir)) (st : LoopState) : Prop :=
  ∀ p, p ∈ st.inner.disk.pareto ∨ p ∈ st.inner.pareto.points →
    Saved W placed st.files.snapshots p

theorem FrontSaved.processed (h : FrontSaved W placed st)
    (hp : Processed W bytes root b st placed j js next) :
    FrontSaved W (placed ++ [(j.place W root, j.work.dir W)]) next := by
  intro p hmem
  rw [hp.stored] at hmem
  have hsnapshots := hp.snapshots
  generalize hpareto : next.inner.pareto = pareto at hmem hsnapshots
  generalize next.files.snapshots = snapshots at hsnapshots ⊢
  cases hsnapshots with
  | stays heq =>
    rw [heq] at hmem
    exact (h p hmem).mono
  | comes t hwritten hsha hrunDir hplace hpoints =>
    have hold : (p ∈ st.inner.disk.pareto ∨ p ∈ st.inner.pareto.points) ∨
        p = b.point (j.result W root) := by
      rcases hmem with hmem | hmem
      · exact .inl (.inl hmem)
      · exact (hpoints p hmem).imp_left .inr
    rcases hold with hold | rfl
    · exact ((h p hold).set t).mono
    · have hpoint : (b.point (j.result W root)).paramsSha = W.paramsSha t := hsha
      have hdir : (b.point (j.result W root)).runDir = runPath root j.run := hrunDir
      refine ⟨⟨t, hpoint.symm, ?_⟩, ⟨t, hpoint.symm, ?_⟩⟩
      · rw [hdir, hplace, Work.dir, hwritten]
        simp
      · rw [hpoint, Dict.get?_set, if_pos rfl]

/-- Inside the loop every point on the front stays saved. -/
theorem FrontSaved.final (h : FrontSaved W placed st) (hrunning : Running W root st.files placed js) :
    FrontSaved W (placed ++ placesFrom W root b.runner st.inner.raised.isNone js)
      (final (b.processFile bytes root) st (js.map (Job.finished W root))) := by
  induction js generalizing st placed with
  | nil => exact fun p hp => (h p hp).mono
  | cons j js ih =>
    rw [List.map_cons, final_cons, placesFrom]
    rcases processFile_cases bytes b hrunning with
      ⟨hraised, hok, next, hp⟩ | ⟨hno, e, hfile, -⟩
    · have hrest := ih (h.processed hp) hp.running
      rw [hp.raised, List.append_assoc] at hrest
      rw [hp.step, hraised, hok]
      exact hrest
    · have hnext : FrontSaved W (placed ++ [Job.start W root j])
          { st with inner := { st.inner with raised := some e } } := fun p hp => (h p hp).mono
      have hrest := ih hnext hrunning.keep
      rw [List.append_assoc] at hrest
      rw [hfile, hno]
      exact hrest

/-- Every point of `PARETO.json` is saved. -/
def StoredSaved (W : Workers τ) (placed : List (String × RunDir)) (tree : Tree) : Prop :=
  ∀ p ∈ tree.disk.pareto, Saved W placed tree.files.snapshots p

theorem StoredSaved.drive (h : StoredSaved W placed tree)
    (hsettled : SettledDirs tree.files placed ids) (hids : (ids ++ r.runIds).Nodup) :
    StoredSaved W (placed ++ r.places W root) (tree.drive W bytes root r).1 := by
  have hrunning : Running W root (tree.start W root r).files placed r.jobs := hsettled.running hids
  have hsnapshots : (tree.start W root r).files.snapshots = tree.files.snapshots :=
    (entries_make hsettled.dirs hrunning.names).2
  have hstart : FrontSaved W placed (tree.start W root r) := by
    intro p hp
    rw [hsnapshots]
    exact h p (or_self_iff.mp hp)
  have hlooped : FrontSaved W (placed ++ r.places W root) (tree.looped W bytes root r) :=
    hstart.final hrunning
  intro p hp
  rw [drive_files]
  rw [drive_eq] at hp
  split at hp
  · exact hlooped p (.inl hp)
  · exact hlooped p (.inr hp)

theorem storedSaved_runs (h : StoredSaved W placed tree)
    (hsettled : SettledDirs tree.files placed ids)
    (hids : (ids ++ runs.flatMap DriverRun.runIds).Nodup) :
    StoredSaved W (placed ++ runs.flatMap (DriverRun.places W root))
      (final (Tree.drive W bytes root) tree runs) := by
  induction runs generalizing tree placed ids with
  | nil => simpa using h
  | cons r runs ih =>
    rw [List.flatMap_cons, ← List.append_assoc] at hids
    have hfirst : (ids ++ r.runIds).Nodup := hids.sublist (List.sublist_append_left _ _)
    rw [final_cons, List.flatMap_cons, ← List.append_assoc]
    exact ih (h.drive hsettled hfirst) (hsettled.drive hfirst) hids

/-- A program that a result ends has met a candidate that could not be judged. -/
theorem raised_processResult {f : Finished} {inner : BatchState} {e : PyError}
    (h : (b.processResult bytes inner f).1.raised = some e) :
    inner.raised = some e ∨ evaluateCandidate f.result b.runner none = .error e := by
  rw [Batch.processResult] at h
  split at h
  · exact .inl h
  · next hraised =>
    split at h
    · next e' he =>
      cases h
      exact .inr he
    · split at h
      · cases h
      · rw [hraised] at h
        cases h

theorem raised_final {inner : BatchState} {fs : List Finished} {e : PyError}
    (h : (final (b.processResult bytes) inner fs).raised = some e) :
    inner.raised = some e ∨ ∃ f ∈ fs, evaluateCandidate f.result b.runner none = .error e := by
  induction fs generalizing inner with
  | nil => exact .inl h
  | cons f fs ih =>
    rcases ih h with hfirst | ⟨f', hf', he⟩
    · rcases raised_processResult hfirst with hraised | he
      · exact .inl hraised
      · exact .inr ⟨f, List.mem_cons_self, he⟩
    · exact .inr ⟨f', List.mem_cons_of_mem f hf', he⟩

/-- After any runs of the driver, ended or raised, whose run directories have distinct names, every
point of `PARETO.json` has its run directory, with the file of a tuning of the point's hash, and a
snapshot under that hash, which such a file went into; and no run of the driver has raised but for a
candidate that could not be judged: the `tuning.yaml` of a point that moves the front is never
missing. -/
theorem front_saved (W : Workers τ) (bytes : HistoryRecord → ℕ) (root : String)
    (runs : List (DriverRun τ)) (hids : (runs.flatMap DriverRun.runIds).Nodup) :
    (∀ p ∈ (final (Tree.drive W bytes root) .empty runs).disk.pareto,
      (∃ t, W.paramsSha t = p.paramsSha ∧
        (final (Tree.drive W bytes root) .empty runs).files.readTuning p.runDir =
          some (W.tuningYaml t)) ∧
      ∃ t, W.paramsSha t = p.paramsSha ∧
        (final (Tree.drive W bytes root) .empty runs).files.snapshots.get?
          (snapshotName p.paramsSha) = some (W.tuningYaml t)) ∧
    ∀ before r after, runs = before ++ r :: after →
      ∀ e, ((final (Tree.drive W bytes root) .empty before).drive W bytes root r).2.raised = some e →
        ∃ j ∈ r.jobs, evaluateCandidate (j.result W root) r.runner none = .error e := by
  have hempty : StoredSaved W [] Tree.empty := by
    intro p hp
    cases hp
  constructor
  · intro p hp
    obtain ⟨⟨t, hsha, hmem⟩, hsnapshot⟩ := storedSaved_runs hempty settledDirs_empty hids p hp
    refine ⟨⟨t, hsha, ?_⟩, hsnapshot⟩
    have hdirs := (settledDirs_runs W bytes root settledDirs_empty hids).dirs
    rw [Files.readTuning, Dict.get?_eq_some_iff.mpr (hdirs.mem_iff.mpr hmem)]
    rfl
  · rintro before r after rfl e he
    rw [List.flatMap_append, List.flatMap_cons, ← List.append_assoc] at hids
    have hfirst : (before.flatMap DriverRun.runIds ++ r.runIds).Nodup :=
      hids.sublist (List.sublist_append_left _ _)
    have hbefore := settledDirs_runs W bytes root settledDirs_empty
      (hfirst.sublist (List.sublist_append_left _ _))
    rw [(drive_disk hbefore hfirst).2, Disk.runBatch] at he
    dsimp only at he
    split at he
    · next e' hraised =>
      cases he
      rcases raised_final hraised with hstart | ⟨f, hf, herror⟩
      · cases hstart
      · obtain ⟨j, hj, rfl⟩ := List.mem_map.mp hf
        exact ⟨j, hj, herror⟩
    · cases he

theorem front_saved_mixed :
    let tree := final (Tree.drive textWorkers (fun _ => 100) "state") .empty [mixedRun]
    tree.disk.pareto.map ParetoPoint.runDir = ["state/runs/a1"] ∧
    ∀ p ∈ tree.disk.pareto, ∃ t, "sha-" ++ t = p.paramsSha ∧
      tree.files.readTuning p.runDir = some ("tuning: " ++ t) := by
  intro tree
  have hfront := (front_saved textWorkers (fun _ => 100) "state" [mixedRun] (by decide)).1
  exact ⟨by decide +kernel, fun p hp => (hfront p hp).1⟩

/-- The counts of the decisions. -/
theorem count_foldl (rs : List CandidateResult) (tally : Tally) :
    (rs.foldl Tally.count tally).accepted =
        tally.accepted + rs.countP (fun r => r.decision = .accepted) ∧
      (rs.foldl Tally.count tally).rejected =
        tally.rejected + rs.countP (fun r => r.decision = .rejected) ∧
      (rs.foldl Tally.count tally).errors =
        tally.errors + rs.countP (fun r => r.decision = .error) := by
  induction rs generalizing tally with
  | nil => exact ⟨rfl, rfl, rfl⟩
  | cons r rs ih =>
    obtain ⟨haccepted, hrejected, herrors⟩ := ih (tally.count r)
    rw [List.foldl_cons, haccepted, hrejected, herrors]
    cases hd : r.decision
    all_goals simp [Tally.count, hd]
    all_goals omega

/-- `best_so_far` is the first accepted result of greatest fitness. -/
theorem best_foldl (rs : List CandidateResult) (tally : Tally) :
    (rs.foldl Tally.count tally).best =
      (rs.filter fun r => r.decision = .accepted).foldl
        (List.argAux fun a c => c.fitnessOrZero < a.fitnessOrZero) tally.best := by
  induction rs generalizing tally with
  | nil => rfl
  | cons r rs ih =>
    rw [List.foldl_cons, ih]
    cases hd : r.decision with
    | accepted =>
      rw [List.filter_cons_of_pos (by simp [hd]), List.foldl_cons]
      congr 1
      simp only [Tally.count, hd]
      cases tally.best <;> rfl
    | rejected | error | duplicate =>
      rw [List.filter_cons_of_neg (by simp [hd])]
      simp [Tally.count, hd]

/-- A program that has ended stays as it is. -/
theorem final_of_raised {fs : List Finished} {e : PyError} (h : st.inner.raised = some e) :
    final (b.processFile bytes root) st fs = st := by
  induction fs with
  | nil => rfl
  | cons f fs ih =>
    have hstep : b.processFile bytes root st f = (st, none) := by simp [Batch.processFile, h]
    rw [final_cons, hstep, ih]

/-- A driver that has ended has counted every result. -/
theorem tally_final (hrunning : Running W root st.files placed js)
    (hended : (final (b.processFile bytes root) st (js.map (Job.finished W root))).inner.raised =
      none) :
    (final (b.processFile bytes root) st (js.map (Job.finished W root))).tally =
      (js.map (Job.result W root)).foldl Tally.count st.tally := by
  induction js generalizing st placed with
  | nil => rfl
  | cons j js ih =>
    rw [List.map_cons, final_cons] at hended ⊢
    rcases processFile_cases bytes b hrunning with ⟨-, -, next, hp⟩ | ⟨-, e, hfile, -⟩
    · rw [hp.step] at hended ⊢
      rw [ih hp.running hended, List.map_cons, List.foldl_cons, hp.tally]
    · rw [hfile, final_of_raised rfl] at hended
      cases hended

/-- The loop does not write `PARETO.json`. -/
theorem stored_final (hrunning : Running W root st.files placed js) :
    (final (b.processFile bytes root) st (js.map (Job.finished W root))).inner.disk.pareto =
      st.inner.disk.pareto := by
  induction js generalizing st placed with
  | nil => rfl
  | cons j js ih =>
    rw [List.map_cons, final_cons]
    rcases processFile_cases bytes b hrunning with ⟨-, -, next, hp⟩ | ⟨-, e, hfile, -⟩
    · rw [hp.step, ih hp.running, hp.stored]
    · rw [hfile, final_of_raised rfl]

/-- Every result is of one of the three decisions that are counted. -/
theorem decisions_counted (js : List (Job τ)) :
    (js.map (Job.result W root)).countP (fun r => r.decision = .accepted) +
      (js.map (Job.result W root)).countP (fun r => r.decision = .rejected) +
      (js.map (Job.result W root)).countP (fun r => r.decision = .error) = js.length := by
  induction js with
  | nil => rfl
  | cons j js ih =>
    have hdecision : (j.result W root).decision = .accepted ∨
        (j.result W root).decision = .rejected ∨ (j.result W root).decision = .error := by
      rcases collected_cases W j.candidateId (runPath root j.run) j.work with
        ⟨_, _, -, hresult⟩ | ⟨t, c, -, hrun, -, -, -, hd⟩
      · exact .inr (.inr (congrArg CandidateResult.decision hresult))
      · have hr : j.result W root = c := by
          change collected _ _ = c
          rw [hrun]
          rfl
        rw [hr]
        exact hd
    rw [List.map_cons, List.countP_cons, List.countP_cons, List.countP_cons, List.length_cons, ← ih]
    rcases hdecision with hd | hd | hd
    all_goals
      simp only [hd]
      simp
      omega

/-- `STATE.md` tells of the run: each candidate is counted once by the decision of its worker, the
size of the front is that of `PARETO.json`, and the best is the first accepted candidate of greatest
fitness. -/
structure Told (W : Workers τ) (root : String) (r : DriverRun τ) (disk : Disk) (m : StateMd) :
    Prop where
  accepted : m.accepted = r.jobs.countP fun j => (j.result W root).decision = .accepted
  rejected : m.rejected = r.jobs.countP fun j => (j.result W root).decision = .rejected
  errors : m.errors = r.jobs.countP fun j => (j.result W root).decision = .error
  each : m.accepted + m.rejected + m.errors = r.jobs.length
  paretoSize : m.paretoSize = disk.pareto.length
  best : m.best = (((r.jobs.map (Job.result W root)).filter fun c => c.decision = .accepted).argmax
    CandidateResult.fitnessOrZero).map (CandidateResult.toBest r.gen)

/-- After any runs of the driver whose run directories have distinct names: when the last has ended,
`STATE.md` tells of it, and when it has raised, `STATE.md` and `PARETO.json` are what they were. -/
theorem stateMd_told (W : Workers τ) (bytes : HistoryRecord → ℕ) (root : String)
    (runs : List (DriverRun τ)) (r : DriverRun τ)
    (hids : ((runs ++ [r]).flatMap DriverRun.runIds).Nodup) :
    let before := final (Tree.drive W bytes root) .empty runs
    let after := before.drive W bytes root r
    (after.2.raised = none → ∃ m, after.1.stateMd = some m ∧ Told W root r after.1.disk m) ∧
    (after.2.raised ≠ none →
      after.1.stateMd = before.stateMd ∧ after.1.disk.pareto = before.disk.pareto) := by
  intro before after
  rw [List.flatMap_append, List.flatMap_singleton] at hids
  have hsettled := settledDirs_runs W bytes root settledDirs_empty
    (hids.sublist (List.sublist_append_left _ _))
  have hrunning : Running W root (before.start W root r).files _ r.jobs := hsettled.running hids
  have hafter : after = before.drive W bytes root r := rfl
  rw [drive_eq] at hafter
  split at hafter
  · rw [hafter]
    refine ⟨(fun hended => by cases hended), fun _ => ⟨rfl, ?_⟩⟩
    exact stored_final hrunning
  · next hended =>
    rw [hafter]
    refine ⟨fun _ => ⟨_, rfl, ?_⟩, fun hraised => absurd rfl hraised⟩
    have htally : (before.looped W bytes root r).tally =
        (r.jobs.map (Job.result W root)).foldl Tally.count {} := tally_final hrunning hended
    obtain ⟨haccepted, hrejected, herrors⟩ :=
      count_foldl (r.jobs.map (Job.result W root)) {}
    rw [← htally, Nat.zero_add, List.countP_map] at haccepted hrejected herrors
    refine ⟨haccepted, hrejected, herrors, ?_, rfl, ?_⟩
    · change (before.looped W bytes root r).tally.accepted +
        (before.looped W bytes root r).tally.rejected +
        (before.looped W bytes root r).tally.errors = _
      rw [haccepted, hrejected, herrors, ← List.countP_map, ← List.countP_map, ← List.countP_map]
      exact decisions_counted r.jobs
    · change (before.looped W bytes root r).tally.best.map _ = _
      rw [htally, best_foldl]
      rfl

theorem stateMd_told_mixed :
    let after := (Tree.empty.drive textWorkers (fun _ => 100) "state" mixedRun).1
    ∃ m, after.stateMd = some m ∧ m.accepted = 1 ∧ m.rejected = 1 ∧ m.errors = 2 ∧
      m.paretoSize = after.disk.pareto.length := by
  intro after
  have hended :
      (Tree.empty.drive textWorkers (fun _ => 100) "state" mixedRun).2.raised = none := by
    decide +kernel
  obtain ⟨m, hm, htold⟩ :=
    (stateMd_told textWorkers (fun _ => 100) "state" [] mixedRun (by decide)).1 hended
  refine ⟨m, hm, ?_, ?_, ?_, htold.paretoSize⟩
  · exact htold.accepted.trans (by decide +kernel)
  · exact htold.rejected.trans (by decide +kernel)
  · exact htold.errors.trans (by decide +kernel)

end Pyharmonics.Loop
