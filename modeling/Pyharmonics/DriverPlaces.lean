import Pyharmonics.DriverFiles

/-! Where the driver leaves the run directories. -/
namespace Pyharmonics.Loop

open Machines

variable {τ : Type} {W : Workers τ} {root reason name src dest : String} {run : RunId} {j : Job τ}
  {js : List (Job τ)} {dir : RunDir} {d : Dict String RunDir} {rest placed : List (String × RunDir)}
  {files : Files} {b : Batch} {bytes : HistoryRecord → ℕ} {st : LoopState}

section

/-! Paths. -/

theorem pathName_append (front : String) : pathName (front ++ "/" ++ run.val) = run.val := by
  have hname : ∀ c ∈ run.val.toList.reverse, decide (c ≠ '/') = true := by
    intro c hc
    rw [decide_eq_true_iff]
    rintro rfl
    exact run.property (List.mem_reverse.mp hc)
  rw [pathName, String.toList_append, String.toList_append, List.reverse_append,
    List.takeWhile_append_of_pos hname, List.reverse_append]
  simp

theorem pathName_runPath : pathName (runPath root run) = run.val := by
  have hpath : runPath root run = root ++ "/runs" ++ "/" ++ run.val := by
    apply String.toList_injective
    simp [runPath]
  rw [hpath, pathName_append]

theorem pathName_rejectedPath : pathName (rejectedPath root reason run.val) = run.val :=
  pathName_append _

theorem runPath_ne_rejectedPath : runPath root run ≠ rejectedPath root reason name := by
  intro h
  have hlist := congrArg String.toList h
  simp [runPath, rejectedPath] at hlist

theorem path_ne_empty {front back : String} (h : front ≠ "") : root ++ front ++ back ≠ "" := by
  intro heq
  have hlist := congrArg String.toList heq
  simp_all

end

/-- A directory moved to a free place leaves the others where they are. -/
theorem entries_moved (h : d.entries.Perm ((src, dir) :: rest))
    (hfree : dest ∉ rest.map Prod.fst) :
    ((d.erase src).set dest dir).entries.Perm ((dest, dir) :: rest) := by
  have hkeys : ((src, dir) :: rest).map Prod.fst |>.Nodup := (h.map Prod.fst).nodup_iff.mp d.nodup
  rw [List.map_cons, List.nodup_cons] at hkeys
  have herase : (d.erase src).entries.Perm rest := by
    refine (h.filter _).trans ?_
    rw [List.filter_cons_of_neg (by simp)]
    refine List.Perm.of_eq (List.filter_eq_self.mpr fun e he => ?_)
    rw [decide_eq_true_iff]
    exact fun heq => hkeys.1 (List.mem_map.mpr ⟨e, he, heq⟩)
  have hmem : dest ∉ (d.erase src).keys := fun hdest => hfree ((herase.map Prod.fst).mem_iff.mp hdest)
  rw [Dict.entries_set_of_notMem hmem]
  exact List.perm_append_comm.trans (herase.cons _)

/-- A directory as its worker leaves it. -/
def Job.start (W : Workers τ) (root : String) (j : Job τ) : String × RunDir :=
  (runPath root j.run, j.work.dir W)

def Job.result (W : Workers τ) (root : String) (j : Job τ) : CandidateResult :=
  (j.finished W root).result

/-- Where the directory of a judged job belongs: a rejected one by its reason, a failed one with the
errors, unless its worker raised. -/
def Job.place (W : Workers τ) (root : String) (j : Job τ) : String :=
  match (j.result W root).decision with
  | .rejected => rejectedPath root (j.result W root).reasonDir j.run.val
  | .error =>
    match j.work with
    | .raised _ _ => runPath root j.run
    | _ => rejectedPath root "errors" j.run.val
  | _ => runPath root j.run

/-- The directories: of the judged jobs at their places, of the others as they started. No two have
one name. -/
structure Running (W : Workers τ) (root : String) (files : Files)
    (placed : List (String × RunDir)) (js : List (Job τ)) : Prop where
  dirs : files.dirs.entries.Perm (placed ++ js.map (Job.start W root))
  names : ((placed ++ js.map (Job.start W root)).map fun e => pathName e.1).Nodup
  paths : ∀ e ∈ placed, e.1 ≠ ""

/-- The directory of the next job is free to be moved to any place of its name. -/
theorem Running.move (h : Running W root files placed (j :: js)) (hname : pathName dest = j.run.val)
    (hdest : dest ≠ "") (hne : dest ≠ runPath root j.run) :
    Running W root (files.rename (runPath root j.run) dest)
      (placed ++ [(dest, j.work.dir W)]) js := by
  have hfront : files.dirs.entries.Perm
      ((runPath root j.run, j.work.dir W) :: (placed ++ js.map (Job.start W root))) :=
    h.dirs.trans List.perm_middle
  have hnames : (((runPath root j.run, j.work.dir W) ::
      (placed ++ js.map (Job.start W root))).map fun e => pathName e.1).Nodup :=
    (List.perm_middle.map _).nodup_iff.mp h.names
  rw [List.map_cons, List.nodup_cons, pathName_runPath] at hnames
  have hfree : dest ∉ (placed ++ js.map (Job.start W root)).map Prod.fst := by
    intro hmem
    obtain ⟨e, he, rfl⟩ := List.mem_map.mp hmem
    exact hnames.1 (List.mem_map.mpr ⟨e, he, hname⟩)
  have hsrc : files.dirs.get? (runPath root j.run) = some (j.work.dir W) :=
    Dict.get?_eq_some_iff.mpr (hfront.mem_iff.mpr List.mem_cons_self)
  have hnone : files.dirs.get? dest = none := by
    refine Option.eq_none_iff_forall_ne_some.mpr fun v hv => ?_
    rcases List.mem_cons.mp (hfront.mem_iff.mp (Dict.get?_eq_some_iff.mp hv)) with heq | hmem
    · exact hne (congrArg Prod.fst heq)
    · exact hfree (List.mem_map_of_mem hmem)
  have hrename : files.rename (runPath root j.run) dest =
      { files with dirs := (files.dirs.erase (runPath root j.run)).set dest (j.work.dir W) } := by
    rw [Files.rename, hsrc]
    dsimp only
    rw [hnone]
  have hplaced : (placed ++ [(dest, j.work.dir W)] ++ js.map (Job.start W root)).Perm
      ((dest, j.work.dir W) :: (placed ++ js.map (Job.start W root))) := by
    rw [List.append_assoc]
    exact List.perm_middle
  rw [hrename]
  constructor
  · exact (entries_moved hfront hfree).trans hplaced.symm
  · refine (hplaced.map _).nodup_iff.mpr ?_
    rw [List.map_cons, List.nodup_cons, hname]
    exact hnames
  · intro e he
    rcases List.mem_append.mp he with hmem | hmem
    · exact h.paths e hmem
    · rw [List.mem_singleton.mp hmem]
      exact hdest

/-- The directory of the next job may stay. -/
theorem Running.keep (h : Running W root files placed (j :: js)) :
    Running W root files (placed ++ [(runPath root j.run, j.work.dir W)]) js := by
  have hsplit : placed ++ [(runPath root j.run, j.work.dir W)] ++ js.map (Job.start W root) =
      placed ++ (j :: js).map (Job.start W root) := by
    rw [List.append_assoc]
    rfl
  refine ⟨hsplit ▸ h.dirs, hsplit ▸ h.names, ?_⟩
  intro e he
  rcases List.mem_append.mp he with hmem | hmem
  · exact h.paths e hmem
  · rw [List.mem_singleton.mp hmem]
    exact path_ne_empty (by decide)

theorem Running.readTuning (h : Running W root files placed (j :: js)) :
    files.readTuning (runPath root j.run) = j.work.written.map W.tuningYaml := by
  have hdir : files.dirs.get? (runPath root j.run) = some (j.work.dir W) :=
    Dict.get?_eq_some_iff.mpr (h.dirs.mem_iff.mpr (by simp [Job.start]))
  rw [Files.readTuning, hdir]
  rfl

/-- No directory has an empty path, so a result without one moves none. -/
theorem Running.rename_empty (h : Running W root files placed js) :
    files.rename "" dest = files := by
  have hnone : files.dirs.get? "" = none := by
    refine Option.eq_none_iff_forall_ne_some.mpr fun v hv => ?_
    rcases List.mem_append.mp (h.dirs.mem_iff.mp (Dict.get?_eq_some_iff.mp hv)) with hmem | hmem
    · exact h.paths _ hmem rfl
    · obtain ⟨k, -, hk⟩ := List.mem_map.mp hmem
      exact path_ne_empty (by decide) (congrArg Prod.fst hk)
  rw [Files.rename, hnone]

/-- What a judged result adds to the counts. -/
def Tally.count (tally : Tally) (r : CandidateResult) : Tally :=
  match r.decision with
  | .accepted => { tally with accepted := tally.accepted + 1, best := Tally.offer tally.best r }
  | .rejected => { tally with rejected := tally.rejected + 1 }
  | .error => { tally with errors := tally.errors + 1 }
  | .duplicate => tally

theorem add_points {s : ParetoSet ℚ} {p q : ParetoPoint ℚ} (h : q ∈ (s.add p).1.points) :
    q ∈ s.points ∨ q = p := by
  rw [ParetoSet.add] at h
  dsimp only at h
  split_ifs at h
  · exact .inl h
  · exact .inl h
  · rcases List.mem_append.mp h with hmem | hmem
    · exact .inl (List.mem_of_mem_filter hmem)
    · exact .inr (List.mem_singleton.mp hmem)

theorem add_unmoved {s : ParetoSet ℚ} {p : ParetoPoint ℚ} (h : (s.add p).2 = false) :
    (s.add p).1 = s := by
  rw [ParetoSet.add] at h ⊢
  dsimp only at h ⊢
  split_ifs at h ⊢
  · rfl
  · rfl

/-- What the front and the snapshots become: they stay, or the point of the result comes and its
tuning is stored. -/
inductive Snapshotted (W : Workers τ) (root : String) (b : Batch) (j : Job τ) (pareto pareto' : ParetoSet ℚ)
    (snapshots : Dict String String) : Dict String String → Prop
  | stays (h : pareto' = pareto) : Snapshotted W root b j pareto pareto' snapshots snapshots
  | comes (t : τ) (written : j.work.written = some t)
    (sha : (j.result W root).paramsSha = W.paramsSha t)
    (runDir : (j.result W root).runDir = runPath root j.run)
    (place : j.place W root = runPath root j.run)
    (points : ∀ p ∈ pareto'.points, p ∈ pareto.points ∨ p = b.point (j.result W root)) :
    Snapshotted W root b j pareto pareto' snapshots
      (snapshots.set (snapshotName (W.paramsSha t)) (W.tuningYaml t))

/-- A judged result is processed as without the directories, and its directory is put in its place;
its `tuning.yaml` is never missing. -/
structure Processed (W : Workers τ) (bytes : HistoryRecord → ℕ) (root : String) (b : Batch)
    (st : LoopState) (placed : List (String × RunDir)) (j : Job τ) (js : List (Job τ))
    (next : LoopState) : Prop where
  step : b.processFile bytes root st (j.finished W root) =
    (next, (b.processResult bytes st.inner (j.finished W root)).2)
  inner : next.inner = (b.processResult bytes st.inner (j.finished W root)).1
  tally : next.tally = st.tally.count (j.result W root)
  raised : next.inner.raised = none
  running : Running W root next.files (placed ++ [(j.place W root, j.work.dir W)]) js
  stored : next.inner.disk.pareto = st.inner.disk.pareto
  snapshots : Snapshotted W root b j st.inner.pareto next.inner.pareto st.files.snapshots
    next.files.snapshots

theorem processFile_rejected {f : Finished} {v : CheckerVerdict} (hraised : st.inner.raised = none)
    (hv : evaluateCandidate f.result b.runner none = .ok v) (hd : f.result.decision = .rejected) :
    b.processFile bytes root st f =
      (⟨{ st.inner with disk := b.written bytes st.inner.disk f v },
        st.files.rename f.result.runDir
          (rejectedPath root f.result.reasonDir (pathName f.result.runDir)),
        st.tally.count f.result⟩, none) := by
  simp [Batch.processFile, Tally.count, hraised, hv, hd]

theorem processFile_error {f : Finished} {v : CheckerVerdict} (hraised : st.inner.raised = none)
    (hv : evaluateCandidate f.result b.runner none = .ok v) (hd : f.result.decision = .error) :
    b.processFile bytes root st f =
      (⟨{ st.inner with disk := b.written bytes st.inner.disk f v },
        st.files.rename f.result.runDir (rejectedPath root "errors" (pathName f.result.runDir)),
        st.tally.count f.result⟩, none) := by
  simp [Batch.processFile, Tally.count, hraised, hv, hd]

theorem processFile_accepted {f : Finished} {v : CheckerVerdict} {payload : String}
    (hraised : st.inner.raised = none)
    (hv : evaluateCandidate f.result b.runner none = .ok v) (hd : f.result.decision = .accepted)
    (hread : st.files.readTuning f.result.runDir = some payload) :
    b.processFile bytes root st f =
      (⟨⟨b.written bytes st.inner.disk f v, (st.inner.pareto.add (b.point f.result)).1, none⟩,
        if (st.inner.pareto.add (b.point f.result)).2 then
          st.files.snapshot f.result.paramsSha payload else st.files,
        st.tally.count f.result⟩,
        if (st.inner.pareto.add (b.point f.result)).2 then some ⟨f.result, v⟩ else none) := by
  cases hmoved : (st.inner.pareto.add (b.point f.result)).2
  all_goals simp [Batch.processFile, Tally.count, hraised, hv, hd, hread, hmoved]

theorem processResult_passed_over {f : Finished} {v : CheckerVerdict} {inner : BatchState}
    (hraised : inner.raised = none) (hv : evaluateCandidate f.result b.runner none = .ok v)
    (hd : f.result.decision ≠ .accepted) :
    b.processResult bytes inner f = ({ inner with disk := b.written bytes inner.disk f v }, none) := by
  simp [Batch.processResult, hraised, hv, hd]

theorem processResult_accepted {f : Finished} {v : CheckerVerdict} {inner : BatchState}
    (hraised : inner.raised = none) (hv : evaluateCandidate f.result b.runner none = .ok v)
    (hd : f.result.decision = .accepted) :
    b.processResult bytes inner f =
      (⟨b.written bytes inner.disk f v, (inner.pareto.add (b.point f.result)).1, none⟩,
        if (inner.pareto.add (b.point f.result)).2 then some ⟨f.result, v⟩ else none) := by
  simp [Batch.processResult, hraised, hv, hd]

/-- A result that is not accepted has its directory moved, or has none. -/
theorem processed_elsewhere (hraised : st.inner.raised = none) {v : CheckerVerdict}
    (hv : evaluateCandidate (j.result W root) b.runner none = .ok v)
    (hd : (j.result W root).decision ≠ .accepted)
    (hstep : b.processFile bytes root st (j.finished W root) =
      (⟨{ st.inner with disk := b.written bytes st.inner.disk (j.finished W root) v },
        st.files.rename src dest, st.tally.count (j.result W root)⟩, none))
    (hrunning : Running W root (st.files.rename src dest)
      (placed ++ [(j.place W root, j.work.dir W)]) js) :
    ∃ next, Processed W bytes root b st placed j js next := by
  have hresult : b.processResult bytes st.inner (j.finished W root) = _ :=
    processResult_passed_over hraised hv hd
  have hsnapshots : (st.files.rename src dest).snapshots = st.files.snapshots := by
    rw [Files.rename]
    split
    · rfl
    · split <;> rfl
  refine ⟨⟨{ st.inner with disk := b.written bytes st.inner.disk (j.finished W root) v },
    st.files.rename src dest, st.tally.count (j.result W root)⟩,
    ?_, ?_, rfl, hraised, hrunning, rfl, ?_⟩
  · rw [hstep, hresult]
  · rw [hresult]
  · exact hsnapshots ▸ .stays rfl

/-- An accepted result leaves its directory; if it moves the front, its tuning is stored. -/
theorem processed_here (h : Running W root st.files placed (j :: js))
    (hraised : st.inner.raised = none) {v : CheckerVerdict}
    (hv : evaluateCandidate (j.result W root) b.runner none = .ok v)
    (hd : (j.result W root).decision = .accepted) {t : τ} (hwritten : j.work.written = some t)
    (hsha : (j.result W root).paramsSha = W.paramsSha t)
    (hrunDir : (j.result W root).runDir = runPath root j.run) :
    ∃ next, Processed W bytes root b st placed j js next := by
  have hread : st.files.readTuning (j.finished W root).result.runDir = some (W.tuningYaml t) := by
    rw [show (j.finished W root).result.runDir = _ from hrunDir, h.readTuning, hwritten]
    rfl
  have hplace : j.place W root = runPath root j.run := by rw [Job.place, hd]
  have hresult : b.processResult bytes st.inner (j.finished W root) = _ :=
    processResult_accepted hraised hv hd
  have hkeep := h.keep
  rw [← hplace] at hkeep
  refine ⟨⟨⟨b.written bytes st.inner.disk (j.finished W root) v,
    (st.inner.pareto.add (b.point (j.result W root))).1, none⟩,
    if (st.inner.pareto.add (b.point (j.result W root))).2 then
      st.files.snapshot (j.result W root).paramsSha (W.tuningYaml t) else st.files,
    st.tally.count (j.result W root)⟩, ?_, ?_, rfl, rfl, ?_, rfl, ?_⟩
  · rw [processFile_accepted hraised hv hd hread, hresult]
    rfl
  · rw [hresult]
    rfl
  · dsimp only
    split
    · exact ⟨hkeep.dirs, hkeep.names, hkeep.paths⟩
    · exact hkeep
  · dsimp only
    split
    · rw [Files.snapshot, hsha]
      exact .comes t hwritten hsha hrunDir hplace fun p hp => add_points hp
    · next hmoved => exact .stays (add_unmoved (Bool.eq_false_iff.mpr hmoved))

/-- A result with its directory has it moved under `REJECTED`. -/
theorem processed_moved (h : Running W root st.files placed (j :: js))
    (hraised : st.inner.raised = none) {v : CheckerVerdict}
    (hv : evaluateCandidate (j.result W root) b.runner none = .ok v)
    (hd : (j.result W root).decision ≠ .accepted)
    (hrunDir : (j.finished W root).result.runDir = runPath root j.run)
    (hplace : j.place W root = rejectedPath root reason j.run.val)
    (hstep : b.processFile bytes root st (j.finished W root) =
      (⟨{ st.inner with disk := b.written bytes st.inner.disk (j.finished W root) v },
        st.files.rename (j.finished W root).result.runDir
          (rejectedPath root reason (pathName (j.finished W root).result.runDir)),
        st.tally.count (j.result W root)⟩, none)) :
    ∃ next, Processed W bytes root b st placed j js next := by
  refine processed_elsewhere hraised hv hd hstep ?_
  rw [hrunDir, pathName_runPath, hplace]
  exact h.move pathName_rejectedPath (path_ne_empty (by decide)) runPath_ne_rejectedPath.symm

theorem processed (h : Running W root st.files placed (j :: js)) (hraised : st.inner.raised = none)
    {v : CheckerVerdict} (hv : evaluateCandidate (j.result W root) b.runner none = .ok v) :
    ∃ next, Processed W bytes root b st placed j js next := by
  rcases collected_cases W j.candidateId (runPath root j.run) j.work with
    ⟨written, exc, hwork, hresult⟩ | ⟨t, r, hwritten, hrun, -, hsha, hdir, hdecision⟩
  · have hr : j.result W root = _ := hresult
    have hd : (j.result W root).decision = .error := by rw [hr]
    have hplace : j.place W root = runPath root j.run := by
      rw [Job.place, hr, hwork]
    refine processed_elsewhere hraised hv (by rw [hd]; decide)
      (processFile_error hraised hv hd) ?_
    have hempty : (j.finished W root).result.runDir = "" := by
      change (j.result W root).runDir = ""
      rw [hr]
    rw [hempty, h.rename_empty, hplace]
    exact h.keep
  · have hr : j.result W root = r := by
      change collected _ _ = r
      rw [hrun]
      rfl
    have hrunDir : (j.finished W root).result.runDir = runPath root j.run := by
      change (j.result W root).runDir = _
      rw [hr, hdir]
    have hnotRaised : ∀ written exc, j.work ≠ .raised written exc := by
      intro written exc heq
      rw [heq] at hrun
      cases hrun
    rcases hdecision with hd | hd | hd
    · rw [← hr] at hd hsha
      exact processed_here h hraised hv hd hwritten hsha hrunDir
    · rw [← hr] at hd
      have hplace : j.place W root = rejectedPath root (j.result W root).reasonDir j.run.val := by
        rw [Job.place, hd]
      exact processed_moved h hraised hv (by rw [hd]; decide) hrunDir hplace
        (processFile_rejected hraised hv hd)
    · rw [← hr] at hd
      have hplace : j.place W root = rejectedPath root "errors" j.run.val := by
        rw [Job.place, hd]
        cases hwork : j.work with
        | raised written exc => exact absurd hwork (hnotRaised written exc)
        | dryRun _ | timedOut _ _ _ | exited _ _ _ => rfl
      exact processed_moved h hraised hv (by rw [hd]; decide) hrunDir hplace
        (processFile_error hraised hv hd)

/-- What a result does: it is judged and processed, or the program has ended before it or ends with
it, and the files stay. -/
theorem processFile_cases (bytes : HistoryRecord → ℕ) (b : Batch)
    (h : Running W root st.files placed (j :: js)) :
    (st.inner.raised = none ∧ (evaluateCandidate (j.result W root) b.runner none).isOk = true ∧
      ∃ next, Processed W bytes root b st placed j js next) ∨
    ((st.inner.raised.isNone && (evaluateCandidate (j.result W root) b.runner none).isOk) = false ∧
      ∃ e, b.processFile bytes root st (j.finished W root) =
          ({ st with inner := { st.inner with raised := some e } }, none) ∧
        b.processResult bytes st.inner (j.finished W root) =
          ({ st.inner with raised := some e }, none)) := by
  cases hraised : st.inner.raised with
  | some e =>
    have hsame : { st.inner with raised := some e } = st.inner := by rw [← hraised]
    refine .inr ⟨rfl, e, ?_, ?_⟩
    · rw [hsame]
      simp [Batch.processFile, hraised]
    · rw [hsame]
      simp [Batch.processResult, hraised]
  | none =>
    cases hv : evaluateCandidate (j.result W root) b.runner none with
    | ok v => exact .inl ⟨rfl, rfl, processed h hraised hv⟩
    | error e =>
      have hv' : evaluateCandidate (j.finished W root).result b.runner none = .error e := hv
      refine .inr ⟨rfl, e, ?_, ?_⟩
      · simp [Batch.processFile, hraised, hv']
      · simp [Batch.processResult, hraised, hv']

/-- The directories of a batch after the loop: those judged are in their places, the others where
they started. -/
def placesFrom (W : Workers τ) (root : String) (runner : Option Runner) :
    Bool → List (Job τ) → List (String × RunDir)
  | _, [] => []
  | judging, j :: js =>
    let judged := judging && (evaluateCandidate (j.result W root) runner none).isOk
    (if judged then j.place W root else runPath root j.run, j.work.dir W) ::
      placesFrom W root runner judged js

/-- The loop over the results agrees with the one without directories, and leaves each directory in
its place. -/
theorem final_running (bytes : HistoryRecord → ℕ) (b : Batch)
    (h : Running W root st.files placed js) :
    outputs (b.processFile bytes root) st (js.map (Job.finished W root)) =
      outputs (b.processResult bytes) st.inner (js.map (Job.finished W root)) ∧
    (final (b.processFile bytes root) st (js.map (Job.finished W root))).inner =
      final (b.processResult bytes) st.inner (js.map (Job.finished W root)) ∧
    Running W root (final (b.processFile bytes root) st (js.map (Job.finished W root))).files
      (placed ++ placesFrom W root b.runner st.inner.raised.isNone js) [] := by
  induction js generalizing st placed with
  | nil => exact ⟨rfl, rfl, by rw [placesFrom, List.append_nil]; exact h⟩
  | cons j js ih =>
    rw [List.map_cons, final_cons, final_cons, outputs, outputs, placesFrom]
    rcases processFile_cases bytes b h with ⟨hraised, hok, next, hp⟩ | ⟨hno, e, hfile, hresult⟩
    · obtain ⟨houtputs, hinner, hrunning⟩ := ih hp.running
      rw [hp.step, hraised, hok]
      rw [hp.raised, List.append_assoc] at hrunning
      rw [hp.inner] at houtputs hinner
      exact ⟨by rw [houtputs], hinner, hrunning⟩
    · obtain ⟨houtputs, hinner, hrunning⟩ :=
        @ih _ { st with inner := { st.inner with raised := some e } } h.keep
      rw [hfile, hresult, hno]
      rw [List.append_assoc] at hrunning
      exact ⟨by rw [houtputs], hinner, hrunning⟩

/-- The run directories after a run of the driver. -/
def DriverRun.places (W : Workers τ) (root : String) (run : DriverRun τ) : List (String × RunDir) :=
  placesFrom W root run.runner true run.jobs

def DriverRun.runIds (run : DriverRun τ) : List String := run.jobs.map fun j => j.run.val

theorem pathName_place : pathName (j.place W root) = j.run.val := by
  rw [Job.place]
  split
  · exact pathName_rejectedPath
  · split
    · exact pathName_runPath
    · exact pathName_rejectedPath
  · exact pathName_runPath

theorem names_placesFrom {runner : Option Runner} {judging : Bool} :
    ((placesFrom W root runner judging js).map fun e => pathName e.1) =
      js.map fun j => j.run.val := by
  induction js generalizing judging with
  | nil => rfl
  | cons j js ih =>
    rw [placesFrom, List.map_cons, List.map_cons, ih]
    dsimp only
    split
    · rw [pathName_place]
    · rw [pathName_runPath]

/-- Fresh directories come behind those that are there. -/
theorem entries_make (hdirs : files.dirs.entries.Perm placed)
    (hnames : ((placed ++ js.map (Job.start W root)).map fun e => pathName e.1).Nodup) :
    (js.foldl (Files.make W root) files).dirs.entries.Perm (placed ++ js.map (Job.start W root)) ∧
      (js.foldl (Files.make W root) files).snapshots = files.snapshots := by
  induction js generalizing files placed with
  | nil => exact ⟨by rw [List.map_nil, List.append_nil]; exact hdirs, rfl⟩
  | cons j js ih =>
    have hsplit : placed ++ (j :: js).map (Job.start W root) =
        placed ++ [Job.start W root j] ++ js.map (Job.start W root) := by simp
    have hfresh : runPath root j.run ∉ files.dirs.keys := by
      intro hmem
      obtain ⟨e, he, heq⟩ := List.mem_map.mp hmem
      rw [List.map_append, List.map_cons, List.nodup_append] at hnames
      refine hnames.2.2 _ (List.mem_map_of_mem (hdirs.mem_iff.mp he)) _ List.mem_cons_self ?_
      rw [heq]
      rfl
    have hmade : (files.make W root j).dirs.entries.Perm (placed ++ [Job.start W root j]) := by
      have hnone : files.dirs.get? (runPath root j.run) = none := by
        refine Option.eq_none_iff_forall_ne_some.mpr fun v hv => hfresh ?_
        exact Dict.mem_keys_iff.mpr ⟨v, hv⟩
      have hdir : (if j.work.written.isSome then j.work.dir W
          else files.dirs.getD (runPath root j.run) ⟨none⟩) = j.work.dir W := by
        rw [Dict.getD, hnone, Work.dir]
        cases j.work.written <;> rfl
      rw [Files.make]
      dsimp only
      rw [hdir, Dict.entries_set_of_notMem hfresh]
      exact hdirs.append_right _
    rw [hsplit] at hnames ⊢
    exact ih hmade hnames

/-- Between the runs of the driver: every directory is in its place, under the name of its run. -/
structure SettledDirs (files : Files) (placed : List (String × RunDir)) (ids : List String) : Prop where
  dirs : files.dirs.entries.Perm placed
  names : (placed.map fun e => pathName e.1) = ids
  paths : ∀ e ∈ placed, e.1 ≠ ""

/-- A driver starts with the directories of its candidates behind the settled ones. -/
theorem SettledDirs.running {ids : List String} (h : SettledDirs files placed ids)
    (hids : (ids ++ js.map fun j => j.run.val).Nodup) :
    Running W root (js.foldl (Files.make W root) files) placed js := by
  have hnames : ((placed ++ js.map (Job.start W root)).map fun e => pathName e.1).Nodup := by
    have hstart : (js.map (Job.start W root)).map (fun e => pathName e.1) =
        js.map fun j => j.run.val := by
      rw [List.map_map]
      exact List.map_congr_left fun j _ => pathName_runPath
    rw [List.map_append, h.names, hstart]
    exact hids
  exact ⟨(entries_make h.dirs hnames).1, hnames, h.paths⟩

variable {ids : List String} {r : DriverRun τ} {tree : Tree} {runs : List (DriverRun τ)}

/-- The driver in front of its results. -/
def Tree.start (W : Workers τ) (root : String) (tree : Tree) (r : DriverRun τ) : LoopState :=
  ⟨.start tree.disk, r.jobs.foldl (Files.make W root) tree.files, {}⟩

/-- The driver behind them. -/
def Tree.looped (W : Workers τ) (bytes : HistoryRecord → ℕ) (root : String) (tree : Tree)
    (r : DriverRun τ) : LoopState :=
  final ((r.batch W root).processFile bytes root) (tree.start W root r)
    (r.jobs.map (Job.finished W root))

theorem drive_eq (W : Workers τ) (bytes : HistoryRecord → ℕ) (root : String) (tree : Tree)
    (r : DriverRun τ) : tree.drive W bytes root r =
      match (tree.looped W bytes root r).inner.raised with
      | some e => ({ tree with
          disk := (tree.looped W bytes root r).inner.disk
          files := (tree.looped W bytes root r).files },
          ⟨(outputs ((r.batch W root).processFile bytes root) (tree.start W root r)
            (r.jobs.map (Job.finished W root))).filterMap id, some e⟩)
      | none => (⟨{ (tree.looped W bytes root r).inner.disk with
          pareto := (tree.looped W bytes root r).inner.pareto.points },
          (tree.looped W bytes root r).files, some (r.stateMd (tree.looped W bytes root r))⟩,
          ⟨(outputs ((r.batch W root).processFile bytes root) (tree.start W root r)
            (r.jobs.map (Job.finished W root))).filterMap id, none⟩) := rfl

theorem drive_files : (tree.drive W bytes root r).1.files = (tree.looped W bytes root r).files := by
  rw [drive_eq]
  split <;> rfl

/-- The driver with directories is the one of the journal and the front. -/
theorem drive_disk (h : SettledDirs tree.files placed ids) (hids : (ids ++ r.runIds).Nodup) :
    (tree.drive W bytes root r).1.disk = (tree.disk.runBatch bytes (r.batch W root)).1 ∧
      (tree.drive W bytes root r).2 = (tree.disk.runBatch bytes (r.batch W root)).2 := by
  have hrunning : Running W root (tree.start W root r).files placed r.jobs := h.running hids
  obtain ⟨houtputs, hinner, -⟩ :=
    final_running bytes (r.batch W root) hrunning
  change outputs _ _ _ = outputs _ (BatchState.start tree.disk) _ at houtputs
  change (tree.looped W bytes root r).inner = final _ (BatchState.start tree.disk) _ at hinner
  have hresults : (r.batch W root).results = r.jobs.map (Job.finished W root) := rfl
  rw [drive_eq, Disk.runBatch, hresults]
  dsimp only
  rw [← hinner, houtputs]
  cases (tree.looped W bytes root r).inner.raised with
  | none => exact ⟨rfl, rfl⟩
  | some e => exact ⟨rfl, rfl⟩

/-- A run of the driver settles its directories. -/
theorem SettledDirs.drive (h : SettledDirs tree.files placed ids) (hids : (ids ++ r.runIds).Nodup) :
    SettledDirs (tree.drive W bytes root r).1.files (placed ++ r.places W root) (ids ++ r.runIds) := by
  have hrunning : Running W root (tree.start W root r).files placed r.jobs := h.running hids
  obtain ⟨-, -, hdirs, -, hpaths⟩ :=
    final_running bytes (r.batch W root) hrunning
  rw [List.map_nil, List.append_nil] at hdirs
  rw [drive_files]
  refine ⟨hdirs, ?_, hpaths⟩
  rw [List.map_append, h.names, DriverRun.places, names_placesFrom]
  rfl

theorem settledDirs_runs (W : Workers τ) (bytes : HistoryRecord → ℕ) (root : String)
    (h : SettledDirs tree.files placed ids)
    (hids : (ids ++ runs.flatMap DriverRun.runIds).Nodup) :
    SettledDirs (final (Tree.drive W bytes root) tree runs).files
      (placed ++ runs.flatMap (DriverRun.places W root)) (ids ++ runs.flatMap DriverRun.runIds) := by
  induction runs generalizing tree placed ids with
  | nil => simpa using h
  | cons r runs ih =>
    rw [List.flatMap_cons, ← List.append_assoc] at hids
    rw [final_cons, List.flatMap_cons, List.flatMap_cons, ← List.append_assoc, ← List.append_assoc]
    exact ih (h.drive (hids.sublist (List.sublist_append_left _ _))) hids

theorem settledDirs_empty : SettledDirs Tree.empty.files [] [] := ⟨.refl _, rfl, by simp⟩

/-- After any runs of the driver, ended or raised, whose run directories have distinct names, each
directory made is there once, with what its worker wrote: by its rejection or its failure under
`REJECTED`, and otherwise where it was made. -/
theorem directories_placed (W : Workers τ) (bytes : HistoryRecord → ℕ) (root : String)
    (runs : List (DriverRun τ)) (hids : (runs.flatMap DriverRun.runIds).Nodup) :
    (final (Tree.drive W bytes root) .empty runs).files.dirs.entries.Perm
      (runs.flatMap (DriverRun.places W root)) ∧
    ((final (Tree.drive W bytes root) .empty runs).files.dirs.keys.map pathName).Perm
      (runs.flatMap DriverRun.runIds) := by
  obtain ⟨hdirs, hnames, -⟩ := settledDirs_runs W bytes root settledDirs_empty hids
  refine ⟨hdirs, ?_⟩
  rw [Dict.keys, List.map_map]
  exact (hdirs.map _).trans (.of_eq hnames)

/-- Workers whose tunings are texts. -/
def textWorkers : Workers String := ⟨fun t => "sha-" ++ t, fun t => "tuning: " ++ t⟩

def tradesSummary (trades : ℤ) : Summary where
  experimental :=
    { tradesCount := trades, sharpe := some (some 1), calmar := some 1, profitFactor := some 2 }
  fitness := some 1

theorem plain_a1 : '/' ∉ "a1".toList := by decide

theorem plain_b2 : '/' ∉ "b2".toList := by decide

theorem plain_c3 : '/' ∉ "c3".toList := by decide

theorem plain_d4 : '/' ∉ "d4".toList := by decide

/-- A candidate is accepted, one rejected, one times out and one raises. -/
def mixedRun : DriverRun String where
  gen := 1
  cluster := "C3"
  symbolSet := "BTCUSD"
  quarter := none
  runner := none
  strategyVersion := "v1"
  jobs :=
    [⟨"c0", ⟨"a1", plain_a1⟩, .exited "one" 0 (some (tradesSummary 40)), 1⟩,
      ⟨"c1", ⟨"b2", plain_b2⟩, .exited "two" 0 (some (tradesSummary 5)), 2⟩,
      ⟨"c2", ⟨"c3", plain_c3⟩, .timedOut "three" 60 "TimeoutExpired", 3⟩,
      ⟨"c3", ⟨"d4", plain_d4⟩, .raised none "OSError", 4⟩]

theorem runIds_mixedRun : mixedRun.runIds = ["a1", "b2", "c3", "d4"] := rfl

theorem places_mixedRun : mixedRun.places textWorkers "state" =
    [("state/runs/a1", ⟨some "tuning: one"⟩),
      ("state/REJECTED/trades_count=5_<_30/b2", ⟨some "tuning: two"⟩),
      ("state/REJECTED/errors/c3", ⟨some "tuning: three"⟩), ("state/runs/d4", ⟨none⟩)] := by
  decide +kernel

theorem directories_placed_mixed :
    let tree := final (Tree.drive textWorkers (fun _ => 100) "state") .empty [mixedRun]
    tree.files.dirs.entries.Perm
      [("state/runs/a1", ⟨some "tuning: one"⟩),
        ("state/REJECTED/trades_count=5_<_30/b2", ⟨some "tuning: two"⟩),
        ("state/REJECTED/errors/c3", ⟨some "tuning: three"⟩), ("state/runs/d4", ⟨none⟩)] ∧
    (tree.files.dirs.keys.map pathName).Perm ["a1", "b2", "c3", "d4"] := by
  obtain ⟨hplaces, hnames⟩ :=
    directories_placed textWorkers (fun _ => 100) "state" [mixedRun] (by decide)
  rw [List.flatMap_singleton, places_mixedRun] at hplaces
  rw [List.flatMap_singleton, runIds_mixedRun] at hnames
  exact ⟨hplaces, hnames⟩

end Pyharmonics.Loop
