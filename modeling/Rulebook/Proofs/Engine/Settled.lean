import Rulebook.Proofs.Engine.Finality
import Rulebook.Proofs.Store.Keeps

/-!
# How executions end

The caller of an execution waits for it until it is answered or goes away. When it waits no more, the
stored record has ended, unless the caller went away while the execution was under way; and when the
actions are done as well, the stored record is the execution with the outcome of every step
(`Engine.record_settles`). A caller that goes away leaves the record as it is at that moment, for ever.
-/

namespace Rulebook

namespace Execution

variable {clock : Clock} {r : Rule} {id : String} {now : Moment} {data : Fields}
  {context : ExecutionContext} {triggeredBy : Option String}

/-- An execution that starts at a reading of a clock is timed by it. -/
theorem opened_times_in (hnow : clock.Shows now) :
    (opened r id now data context triggeredBy).TimesIn clock :=
  ⟨hnow, fun _ hm => Option.some.inj hm ▸ hnow, by simp [opened, Engine.pending],
    by simp [opened, Engine.pending]⟩

/-- An execution that is refused at a reading of a clock is timed by it. -/
theorem refused_times_in (hnow : clock.Shows now) (reason : RateLimit) :
    (refused r id now data context triggeredBy reason).TimesIn clock :=
  TimesIn.move_to ⟨hnow, by simp [Engine.pending], by simp [Engine.pending],
    by simp [Engine.pending]⟩ hnow _ rfl

/-- An execution that is refused has no steps. -/
theorem refused_steps (reason : RateLimit) :
    (refused r id now data context triggeredBy reason).steps = [] :=
  move_to_steps _ now _ rfl

/-- An execution that is refused has ended. -/
theorem refused_is_terminal (reason : RateLimit) :
    (refused r id now data context triggeredBy reason).isTerminal = true :=
  move_to_is_terminal (by simp [StartsOn, Engine.pending]) rfl _ rfl

end Execution

/-- The execution of a run when its actions are done and leave `x`: closed if its caller waits. -/
def Run.ending (run : Run) (now : Moment) (x : Execution) : Execution :=
  match run.watch with
  | .caller _ => x.close now
  | _ => x

namespace Standing

/-- The caller of an execution of which `Q` holds waits for it. -/
def IsCalled (s : Standing) (Q : Execution → Prop) : Prop :=
  ∃ run timed, s.run = some run ∧ run.watch = .caller timed ∧ Q run.execution

/-- How the version `y` that is stored and the version `x` that is the latest relate; `L` says whether
the caller went away while it waited, `R` whether it did so before the execution had ended. -/
inductive Stage (L R : Prop) (y x : Execution) : Option Run → Prop where
  /-- The caller waits. -/
  | called {run : Run} {timed : Bool} (hwatch : run.watch = .caller timed) (hL : ¬L) (hR : ¬R)
      (hsame : y.isTerminal = x.isTerminal) : Stage L R y x (some run)
  /-- The caller has been answered because the time has run out. -/
  | late {run : Run} (hwatch : run.watch = .late) (hL : ¬L) (hR : ¬R)
      (hended : y.isTerminal = true) : Stage L R y x (some run)
  /-- The caller has been answered, and the actions are done. -/
  | over (hL : ¬L) (hR : ¬R) (hsame : y = x) (hended : x.isTerminal = true)
      (hsteps : ∀ s ∈ x.steps, s.isEnded = true) : Stage L R y x none
  /-- The caller went away while it waited. -/
  | left {run? : Option Run} (hwatch : ∀ run, run? = some run → run.watch = .nobody) (hL : L)
      (hR : R ↔ y.isTerminal = false) : Stage L R y x run?

/-- The version `y` is stored, and `x` is the latest; the store keeps versions with so many tries. -/
structure Versions (p : ExecutionStore) (clock : Clock) (s : Standing) (y x : Execution)
    (retries : Nat) : Prop where
  stored : ∃ n, s.entry = some n ∧ p.entryOf y = .ok n
  precedes : y.Precedes x
  timed : x.TimesIn clock
  tells : x.Tells retries s.tries
  keeps : p.Keeps clock (retries + 1)
  run : ∀ run, s.run = some run → run.execution = x ∧ run.rule.retries = retries

/-- Nothing is held about the execution, or it is in one of the stages. -/
def Settled (p : ExecutionStore) (clock : Clock) (L R : Prop) (s : Standing) : Prop :=
  (s = .blank ∧ ¬L ∧ ¬R) ∨ ∃ y x retries, Versions p clock s y x retries ∧ Stage L R y x s.run

variable {U : Rule → Prop} {C : Run → Nat → Execution} {p : ExecutionStore} {clock : Clock}
  {now : Moment} {id : String} {act : Act} {s s' : Standing} {L R L' R' : Prop} {x y z : Execution}
  {retries : Nat}

/-- An execution of which nothing is held and that nobody left is settled. -/
theorem settled_blank : Standing.blank.Settled p clock False False := .inl ⟨rfl, not_false, not_false⟩

/-- An execution of which nothing is held has not been left. -/
theorem Settled.of_blank (h : Standing.blank.Settled p clock L R) : ¬L ∧ ¬R := by
  obtain ⟨_, hleft⟩ | ⟨y, x, retries, hv, _⟩ := h
  · exact hleft
  · obtain ⟨n, hn, _⟩ := hv.stored
    cases hn

/-- An execution with a run is in a stage, and the run has the latest version. -/
theorem Settled.of_run (h : s.Settled p clock L R) {run : Run} (hrun : s.run = some run) :
    ∃ y, Versions p clock s y run.execution run.rule.retries ∧
      Stage L R y run.execution (some run) := by
  obtain ⟨rfl, _⟩ | ⟨y, x, retries, hv, hstage⟩ := h
  · cases hrun
  · obtain ⟨rfl, rfl⟩ := hv.run run hrun
    exact ⟨y, hv, hrun ▸ hstage⟩

/-- A version that tells the tries and is timed by the clock is stored when it is written. -/
theorem save_stored {n : StoreEntry} (hn : s.entry = some n) (hkeeps : p.Keeps clock (retries + 1))
    {l : List TryEvent} (htells : x.Tells retries l) (hz : z.TimesIn clock)
    (hsteps : z.steps = x.steps) : ∃ m, (s.save p z).entry = some m ∧ p.entryOf z = .ok m := by
  obtain ⟨m, hm⟩ := hkeeps.entry_of htells hz hsteps
  exact ⟨m, by simp [save, hn, hm, Except.toOption], hm⟩

/-- The versions stay when neither a step moves nor anything is written. -/
theorem Versions.stay (hv : Versions p clock s y x retries) (hentry : s'.entry = s.entry)
    (htries : s'.tries = s.tries)
    (hrun : ∀ run, s'.run = some run → run.execution = x ∧ run.rule.retries = retries) :
    Versions p clock s' y x retries where
  stored := hentry ▸ hv.stored
  precedes := hv.precedes
  timed := hv.timed
  tells := htries ▸ hv.tells
  keeps := hv.keeps
  run := hrun

/-- When steps move, the latest version is the one they lead to, and the same is stored. -/
theorem Versions.moves {A : List Action} {l : List TryEvent} (hv : Versions p clock s y x retries)
    (hmoves : Moves now retries A x l z) (hnow : clock.Shows now) {run? : Option Run}
    (hrun : ∀ run, run? = some run → run.execution = z ∧ run.rule.retries = retries) :
    Versions p clock { s with run := run?, tries := s.tries ++ l } y z retries where
  stored := hv.stored
  precedes := hv.precedes.trans hmoves.precedes
  timed := hmoves.times_in hv.timed hnow
  tells := hmoves.tells hv.tells
  keeps := hv.keeps
  run := hrun

/-- A version that is written with the steps of the latest is both the one stored and the latest. -/
theorem Versions.write (hv : Versions p clock s y x retries) (hlater : x.Precedes z)
    (hsteps : z.steps = x.steps) (hz : z.TimesIn clock) (hentry : s'.entry = (s.save p z).entry)
    (htries : s'.tries = s.tries)
    (hrun : ∀ run, s'.run = some run → run.execution = z ∧ run.rule.retries = retries) :
    Versions p clock s' z z retries := by
  obtain ⟨n, hn, _⟩ := hv.stored
  obtain ⟨m, hm, hz'⟩ := save_stored hn hv.keeps hv.tells hz hsteps
  exact ⟨⟨m, hentry.trans hm, hz'⟩, .refl z, hz, htries ▸ hv.tells.of_precedes hlater hsteps, hv.keeps,
    hrun⟩

/-- A standing without a run is over when the end of its execution is written and all its steps have
ended. -/
theorem Versions.settled_of_end (hv : Versions p clock s y x retries) (hlater : x.Precedes z)
    (hsteps : z.steps = x.steps) (hz : z.TimesIn clock) (hended : z.isTerminal = true)
    (hdone : ∀ t ∈ x.steps, t.isEnded = true) (hleft : ¬L ∧ ¬R)
    (hentry : s'.entry = (s.save p z).entry) (htries : s'.tries = s.tries) (hrun : s'.run = none) :
    s'.Settled p clock L R := by
  refine .inr ⟨z, z, retries, hv.write hlater hsteps hz hentry htries (hrun ▸ of_no_run), ?_⟩
  rw [hrun]
  exact .over hleft.1 hleft.2 rfl hended (hsteps ▸ hdone)

/-- An execution that has been launched is in a stage. -/
theorem Launched.settled {r : Rule} {n : StoreEntry} {conditions : Except NumberFault Bool}
    (h : Launched p now r x n conditions s) (hn : p.entryOf x = .ok n) (hrunning : x.status = .running)
    (hsteps : x.steps = []) (hx : x.TimesIn clock) (hnow : clock.Shows now)
    (hkeeps : p.Keeps clock (r.retries + 1)) (hleft : ¬L ∧ ¬R) : s.Settled p clock L R := by
  have hopen : x.isTerminal = false := by rw [Execution.isTerminal, hrunning]; rfl
  have hrunning' : x.isStopped = false := by rw [Execution.isStopped, hrunning]; rfl
  have haware := clock.agrees now hnow
  have hnone : ∀ t ∈ x.steps, t.isEnded = true := by simp [hsteps]
  -- the execution as it is opened, before anything becomes of it
  have hv : Versions p clock ⟨some n, none, false, []⟩ x x r.retries :=
    ⟨⟨n, rfl, hn⟩, .refl x, hx, .of_nil hsteps (by simp), hkeeps, of_no_run⟩
  cases h with
  | crashed f =>
      exact hv.settled_of_end (x.precedes_crashed now f) (Execution.move_to_steps x now _ rfl)
        (hx.move_to hnow _ rfl) (Execution.move_to_is_terminal hx.starts_on haware _ rfl) hnone hleft
        rfl rfl rfl
  | unmet =>
      have hskipped : ({ x with result := some Execution.skipped } : Execution).TimesIn clock :=
        ⟨hx.triggered, hx.started, hx.completed, hx.steps⟩
      exact hv.settled_of_end (Execution.precedes_unmet now hopen) (Execution.move_to_steps _ now _ rfl)
        (hskipped.move_to hnow _ rfl)
        (Execution.move_to_is_terminal hskipped.starts_on haware _ rfl) hnone hleft rfl rfl rfl
  | finished hmoves hover =>
      have htimed := hmoves.times_in hx hnow
      exact (hv.moves hmoves hnow of_no_run).settled_of_end (Execution.precedes_close _ now)
        (Execution.close_steps _ now) (htimed.close hnow)
        (Execution.close_is_terminal htimed.starts_on haware) hover.all_ended hleft rfl rfl rfl
  | waits hmoves hfits hy =>
      refine .inr ⟨x, _, r.retries, (hv.moves hmoves hnow of_no_run).stay rfl rfl
        (of_one_run ⟨rfl, rfl⟩), .called rfl hleft.1 hleft.2 ?_⟩
      rw [hopen, hy.is_terminal_eq, hmoves.is_stopped_eq, hrunning']

/-- A stage in which the caller of a run waits. -/
theorem Stage.of_called {run : Run} (h : Stage L R y x (some run)) {timed : Bool}
    (hwatch : run.watch = .caller timed) : (¬L ∧ ¬R) ∧ y.isTerminal = x.isTerminal := by
  cases h with
  | called _ hL hR hsame => exact ⟨⟨hL, hR⟩, hsame⟩
  | late hlate =>
      rw [hwatch] at hlate
      cases hlate
  | left hnobody =>
      have hnobody := hnobody run rfl
      rw [hwatch] at hnobody
      cases hnobody

/-- A stage in which the caller of a run has been answered because the time has run out. -/
theorem Stage.of_late {run : Run} (h : Stage L R y x (some run)) (hwatch : run.watch = .late) :
    (¬L ∧ ¬R) ∧ y.isTerminal = true := by
  cases h with
  | called hcaller =>
      rw [hwatch] at hcaller
      cases hcaller
  | late _ hL hR hended => exact ⟨⟨hL, hR⟩, hended⟩
  | left hnobody =>
      have hnobody := hnobody run rfl
      rw [hwatch] at hnobody
      cases hnobody

/-- A stage in which nobody waits for a run. -/
theorem Stage.of_nobody {run : Run} (h : Stage L R y x (some run)) (hwatch : run.watch = .nobody) :
    L ∧ (R ↔ y.isTerminal = false) := by
  cases h with
  | called hcaller =>
      rw [hwatch] at hcaller
      cases hcaller
  | late hlate =>
      rw [hwatch] at hlate
      cases hlate
  | left _ hL hR => exact ⟨hL, hR⟩

/-- A run that goes on stays in its stage. -/
theorem Stage.goes_on {run run' : Run} (h : Stage L R y x (some run)) (hwatch : run'.watch = run.watch)
    (hsame : z.isTerminal = x.isTerminal) : Stage L R y z (some run') := by
  cases h with
  | called hcaller hL hR h => exact .called (hwatch.trans hcaller) hL hR (h.trans hsame.symm)
  | late hlate hL hR hended => exact .late (hwatch.trans hlate) hL hR hended
  | left hnobody hL hR =>
      refine .left (fun _ hrun => ?_) hL hR
      rw [← Option.some.inj hrun, hwatch]
      exact hnobody run rfl

/-- A caller that goes away while it waits leaves the record as it is. -/
theorem Stage.leaves {run : Run} (h : Stage L R y run.execution (some run)) (hrun : s.run = some run)
    {timed : Bool} (hwatch : run.watch = .caller timed)
    (hL : L' ↔ L ∨ Act.abandon id = .abandon id ∧ s.IsCalled fun _ => True)
    (hR : R' ↔ R ∨ Act.abandon id = .abandon id ∧ s.IsCalled fun x => x.isTerminal = false)
    {run? : Option Run} (hnobody : ∀ run, run? = some run → run.watch = .nobody) :
    Stage L' R' y run.execution run? := by
  obtain ⟨⟨_, hopen⟩, hends⟩ := h.of_called hwatch
  refine .left hnobody (hL.mpr (.inr ⟨rfl, run, timed, hrun, hwatch, trivial⟩)) ?_
  rw [hR, hends]
  constructor
  · rintro (hopen' | ⟨_, run', _, hrun', _, hQ⟩)
    · exact absurd hopen' hopen
    · rw [hrun, Option.some.injEq] at hrun'
      exact hrun' ▸ hQ
  · exact fun hQ => .inr ⟨rfl, run, timed, hrun, hwatch, hQ⟩

/-- An execution stays in its stage when it cannot be cancelled any more. -/
theorem Settled.released (h : s.Settled p clock L R) :
    ({ s with cancellable := false } : Standing).Settled p clock L R := by
  obtain ⟨rfl, hleft⟩ | ⟨y, x, retries, hv, hstage⟩ := h
  · exact .inl ⟨rfl, hleft⟩
  · exact .inr ⟨y, x, retries, hv.stay rfl rfl hv.run, hstage⟩

/-- A change keeps an execution in a stage. -/
theorem Change.settled (h : Change U C p now id act s s') (hs : s.Sound p id) (hnow : clock.Shows now)
    (hU : ∀ r, U r → p.Keeps clock (r.retries + 1)) (hsettled : s.Settled p clock L R)
    (hL : L' ↔ L ∨ act = .abandon id ∧ s.IsCalled fun _ => True)
    (hR : R' ↔ R ∨ act = .abandon id ∧ s.IsCalled fun x => x.isTerminal = false) :
    s'.Settled p clock L' R' := by
  have haware := clock.agrees now hnow
  -- only a caller that goes away while it waits changes what is said of it
  have hsame : ¬(act = .abandon id ∧ s.IsCalled fun _ => True) → L' = L ∧ R' = R := by
    intro hnot
    refine ⟨propext (hL.trans (or_iff_left hnot)), propext (hR.trans (or_iff_left ?_))⟩
    rintro ⟨hact, run, timed, hrun, hwatch, _⟩
    exact hnot ⟨hact, run, timed, hrun, hwatch, trivial⟩
  cases h with
  | stay _ hact =>
      obtain ⟨rfl, rfl⟩ := hsame fun h => hact h.1
      exact hsettled
  | @refused _ data context triggeredBy r reason hr =>
      obtain ⟨rfl, rfl⟩ := hsame nofun
      obtain ⟨hleft, hopen⟩ := hsettled.of_blank
      have htimed : (Execution.refused r id now data context triggeredBy reason).TimesIn clock :=
        Execution.refused_times_in hnow reason
      have hsteps : (Execution.refused r id now data context triggeredBy reason).steps = [] :=
        Execution.refused_steps reason
      obtain ⟨n, hn⟩ := hU r hr _ htimed (by simp [hsteps])
      refine .inr ⟨_, _, r.retries, ⟨⟨n, by rw [hn]; rfl, hn⟩, .refl _, htimed,
        .of_nil hsteps (by simp), hU r hr, of_no_run⟩,
        .over hleft hopen rfl (Execution.refused_is_terminal reason) (by simp [hsteps])⟩
  | launched hr hx hn hlaunched =>
      obtain ⟨rfl, rfl⟩ := hsame nofun
      refine hlaunched.settled hn (hx ▸ rfl) (hx ▸ rfl) ?_ hnow (hU _ hr) hsettled.of_blank
      rw [hx]
      exact Execution.opened_times_in hnow
  | @waits _ run _ _ z phase hrun _ hmoves hfits hy =>
      obtain ⟨rfl, rfl⟩ := hsame nofun
      obtain ⟨y, hv, hstage⟩ := hsettled.of_run hrun
      have hends : z.isTerminal = run.execution.isTerminal := by
        rw [hy.is_terminal_eq, (hs.run run hrun).underway.is_terminal_eq, hmoves.is_stopped_eq]
      exact .inr ⟨y, z, run.rule.retries, hv.moves hmoves hnow (of_one_run ⟨rfl, rfl⟩),
        hstage.goes_on rfl hends⟩
  | finished hrun hwatch _ hmoves hover =>
      obtain ⟨rfl, rfl⟩ := hsame nofun
      obtain ⟨y, hv, hstage⟩ := hsettled.of_run hrun
      have htimed := hmoves.times_in hv.timed hnow
      exact (hv.moves hmoves hnow of_no_run).settled_of_end (Execution.precedes_close _ now)
        (Execution.close_steps _ now) (htimed.close hnow)
        (Execution.close_is_terminal htimed.starts_on haware) hover.all_ended
        (hstage.of_called hwatch).1 rfl rfl rfl
  | finishedLate hrun hwatch _ hmoves hover =>
      obtain ⟨rfl, rfl⟩ := hsame nofun
      obtain ⟨y, hv, hstage⟩ := hsettled.of_run hrun
      obtain ⟨hleft, hended⟩ := hstage.of_late hwatch
      exact (hv.moves hmoves hnow of_no_run).settled_of_end (.refl _) rfl
        (hmoves.times_in hv.timed hnow) ((hv.precedes.trans hmoves.precedes).is_terminal hended)
        hover.all_ended hleft rfl rfl rfl
  | finishedUnseen hrun hwatch _ hmoves hover =>
      obtain ⟨rfl, rfl⟩ := hsame nofun
      obtain ⟨y, hv, hstage⟩ := hsettled.of_run hrun
      obtain ⟨hleft, hopen⟩ := hstage.of_nobody hwatch
      exact .inr ⟨y, _, _, hv.moves hmoves hnow of_no_run, .left of_no_run hleft hopen⟩
  | @expired _ run hrun hwatch =>
      obtain ⟨rfl, rfl⟩ := hsame nofun
      obtain ⟨y, hv, hstage⟩ := hsettled.of_run hrun
      obtain ⟨hleft, hopen⟩ := (hstage.of_called hwatch).1
      have htimed : (run.execution.expired run.rule now).TimesIn clock :=
        (hv.timed.move_to hnow _ rfl).close hnow
      have hended : (run.execution.expired run.rule now).isTerminal = true :=
        Execution.close_is_terminal (hv.timed.move_to hnow _ rfl).starts_on haware
      exact .inr ⟨_, _, run.rule.retries, hv.write (Execution.precedes_expired _ _ now)
        (Execution.expired_steps _ _ now) htimed rfl rfl (of_one_run ⟨rfl, rfl⟩),
        .late rfl hleft hopen hended⟩
  | @cancelled _ run _ z moved hrun hcancellable hmove =>
      obtain ⟨rfl, rfl⟩ := hsame nofun
      obtain ⟨timed, hwatch⟩ := hs.called_run hrun hcancellable
      obtain ⟨y, hv, hstage⟩ := hsettled.of_run hrun
      obtain ⟨⟨hleft, hopen⟩, hends⟩ := hstage.of_called hwatch
      have hmoved := Execution.moves_to hmove rfl
      have htimed := hv.timed.move_to hnow (some "Execution cancelled")
        (rfl : ExecutionStatus.isTerminal .cancelled = true)
      rw [hmove] at htimed
      cases moved with
      | false =>
          have htells := hv.tells.of_precedes hmoved.later hmoved.steps
          exact .inr ⟨y, z, run.rule.retries, ⟨hv.stored, hv.precedes.trans hmoved.later, htimed,
            htells, hv.keeps, of_one_run ⟨rfl, rfl⟩⟩, .called hwatch hleft hopen
            (hmoved.unmoved rfl ▸ hends)⟩
      | true =>
          exact .inr ⟨z, z, run.rule.retries, hv.write hmoved.later hmoved.steps htimed rfl rfl
            (of_one_run ⟨rfl, rfl⟩), .called hwatch hleft hopen rfl⟩
  | @left _ run hrun hwatch =>
      obtain ⟨y, hv, hstage⟩ := hsettled.of_run hrun
      exact .inr ⟨y, run.execution, run.rule.retries, hv.stay rfl rfl (of_one_run ⟨rfl, rfl⟩),
        hstage.leaves hrun hwatch hL hR (of_one_run rfl)⟩
  | @brokenOff _ run hrun hwatch =>
      obtain ⟨y, hv, hstage⟩ := hsettled.of_run hrun
      exact .inr ⟨y, run.execution, run.rule.retries, hv.stay rfl rfl of_no_run,
        hstage.leaves hrun hwatch hL hR of_no_run⟩
  | released _ hwatch =>
      obtain ⟨rfl, rfl⟩ := hsame fun ⟨_, run, timed, hrun, hcaller, _⟩ => hwatch run timed hrun hcaller
      exact hsettled.released
  | restarted =>
      obtain ⟨rfl, rfl⟩ := hsame nofun
      exact hsettled.released

/-- Where the actions are done, nothing changes any more. -/
theorem Change.of_over (h : Change U C p now id act s s') (hrun : s.run = none) (hentry : s.entry ≠ none) :
    s'.run = none ∧ s'.entry = s.entry := by
  have hnot : ∀ run, s.run ≠ some run := fun run h => by rw [hrun] at h; cases h
  cases h with
  | refused => exact absurd rfl hentry
  | launched => exact absurd rfl hentry
  | stay => exact ⟨hrun, rfl⟩
  | released => exact ⟨hrun, rfl⟩
  | restarted => exact ⟨hrun, rfl⟩
  | waits h => exact absurd h (hnot _)
  | finished h => exact absurd h (hnot _)
  | finishedLate h => exact absurd h (hnot _)
  | finishedUnseen h => exact absurd h (hnot _)
  | expired h => exact absurd h (hnot _)
  | cancelled h => exact absurd h (hnot _)
  | left h => exact absurd h (hnot _)
  | brokenOff h => exact absurd h (hnot _)

/-- When a reply ends the last action of a run for which somebody waits, the execution is stored as it
is then. -/
theorem Change.stores_end {lane : Nat} (h : Change U C p now id (.ring (.wake id lane)) s s')
    (hsettled : s.Settled p clock L R) (hnow : clock.Shows now) {run : Run}
    (hrun : s.run = some run) (hwatch : run.watch ≠ .nobody) (hdone : s'.run = none) :
    ∃ n, s'.entry = some n ∧ p.entryOf (run.ending now (C run lane)) = .ok n := by
  obtain ⟨y, hv, _⟩ := hsettled.of_run hrun
  obtain ⟨n, hn, _⟩ := hv.stored
  cases h with
  | stay =>
      rw [hrun] at hdone
      cases hdone
  | waits => cases hdone
  | finishedUnseen hrun' hnobody =>
      rw [hrun, Option.some.injEq] at hrun'
      exact absurd (hrun' ▸ hnobody) hwatch
  | finished hrun' hcaller hy hmoves =>
      rw [hrun, Option.some.injEq] at hrun'
      subst hrun' hy
      rw [Run.ending, hcaller]
      exact save_stored hn hv.keeps (hmoves.tells hv.tells) ((hmoves.times_in hv.timed hnow).close hnow)
        (Execution.close_steps _ now)
  | finishedLate hrun' hlate hy hmoves =>
      rw [hrun, Option.some.injEq] at hrun'
      subst hrun' hy
      rw [Run.ending, hlate]
      exact save_stored hn hv.keeps (hmoves.tells hv.tells) (hmoves.times_in hv.timed hnow) rfl

end Standing

/-- The execution `x` is what is read of the execution `y` from its entry. -/
def ExecutionStore.Reads (p : ExecutionStore) (y x : Execution) : Prop :=
  ∃ n, p.entryOf y = .ok n ∧ n.read = .ok x

namespace Engine

variable {σ : Type} {v : Environment σ} {p : ExecutionStore} {clock : Clock} {now : Moment}
  {e : Engine (Traced σ)} {id : String} {x : Execution}

/-- Acts keep an execution in a stage, which the going away of its caller decides. -/
theorem after_settled (hk : e.core.Sound p) (h : (e.core.standing id).Settled p clock False False)
    (acts : List (Moment × Act)) (hclock : ∀ act ∈ acts, clock.Shows act.1)
    (hstore : ∀ r, e.ComesToUse v.traced acts r → p.Keeps clock (r.retries + 1)) :
    ((e.after v.traced acts).core.standing id).Settled p clock
      (e.WasLeft v.traced acts id fun _ => True)
      (e.WasLeft v.traced acts id fun x => x.isTerminal = false) := by
  -- from the end, as whether the caller went away is told of the last act and those before it
  induction acts using List.reverseRecOn with
  | nil =>
      have hnever : ∀ Q, e.WasLeft v.traced [] id Q = False := fun Q => eq_false fun h => by
        obtain ⟨before, _, _, hacts, _⟩ := h
        simp at hacts
      rwa [hnever, hnever]
  | append_singleton acts act ih =>
      have hbefore := ih (fun a ha => hclock a (List.mem_append_left _ ha)) fun r hr =>
        hstore r (hr.append _)
      have hkeeps : ∀ r, (e.after v.traced acts).UsesRule r → p.Keeps clock (r.retries + 1) :=
        fun r huse => hstore r ⟨acts, [act], rfl, huse⟩
      have hsound := after_sound (v := v) hk acts
      rw [after_append]
      exact (act_change hsound act.2 id).settled (hsound.standing id)
        (hclock act (by simp)) hkeeps hbefore (was_left_concat _ _ _ _ _ _)
        (was_left_concat _ _ _ _ _ _)

/-- Acts leave a record whose actions are done as it is. -/
theorem after_of_over (hk : e.core.Sound p) (hrun : e.run? id = none) {n : StoreEntry}
    (hn : e.executions.entryAt id = some n) (acts : List (Moment × Act)) :
    (e.after v.traced acts).executions.entryAt id = some n := by
  induction acts generalizing e with
  | nil => exact hn
  | cons act acts ih =>
      have hentry : (e.core.standing id).entry ≠ none := fun h => by
        rw [show (e.core.standing id).entry = some n from hn] at h
        cases h
      obtain ⟨hrun', hentry'⟩ := (@act_change _ v _ act.1 _ hk act.2 id).of_over hrun hentry
      exact ih (act_sound hk act.2) hrun' (hentry'.trans hn)

/-- When the caller of an execution waits no more, the stored record has not ended exactly if the caller
went away before the execution had ended. -/
theorem unended_iff_left (he : e.IsNew) (acts : List (Moment × Act))
    (hclock : ∀ act ∈ acts, clock.Shows act.1)
    (hstore : ∀ r, e.ComesToUse v.traced acts r → e.executions.Keeps clock (r.retries + 1))
    (hx : (e.after v.traced acts).executions.get id = .ok (some x))
    (hanswered : ¬(e.after v.traced acts).IsCalled id fun _ => True) :
    x.isTerminal = false ↔ e.WasLeft v.traced acts id fun y => y.isTerminal = false := by
  obtain ⟨n, hn, hread⟩ := entry_of_get hx
  obtain ⟨hnone, _⟩ | ⟨y, z, retries, hv, hstage⟩ :=
    after_settled he.sound (he.standing_eq id ▸ Standing.settled_blank) acts hclock hstore
  · rw [hnone] at hn
    cases hn
  obtain ⟨m, hm, hy⟩ := hv.stored
  obtain rfl := Option.some.inj (hn.symm.trans hm)
  have hends : x.isTerminal = y.isTerminal :=
    congrArg ExecutionStatus.isTerminal (ExecutionStore.kept_as hy hread).status
  rw [hends]
  generalize hrun : ((e.after v.traced acts).core.standing id).run = run? at hstage
  cases hstage with
  | called hwatch => exact absurd ⟨_, _, hrun, hwatch, trivial⟩ hanswered
  | late _ _ hR hended => exact iff_of_false (by simp [hended]) hR
  | «over» _ hR hsame hended => exact iff_of_false (by simp [hsame, hended]) hR
  | left _ _ hR => exact hR.symm

/-- When the caller of an execution waits no more, the execution cannot be cancelled, and its stored
record has not ended exactly if the caller went away before the execution had ended. When the actions
are done as well and the caller did not go away while it waited, the record tells what happened to all
tries, all its steps have ended, and it is read of the execution as the last reply left it. -/
theorem record_settles (v : Environment σ) (he : e.IsNew) (acts : List (Moment × Act)) (id : String)
    (hclock : ∀ act ∈ acts, clock.Shows act.1)
    (hstore : ∀ r, e.ComesToUse v.traced acts r → e.executions.Keeps clock (r.retries + 1))
    (hx : (e.after v.traced acts).executions.get id = .ok (some x))
    (hanswered : ¬(e.after v.traced acts).IsCalled id fun _ => True) :
    id ∉ (e.after v.traced acts).inFlight ∧
    (x.isTerminal = false ↔ e.WasLeft v.traced acts id fun y => y.isTerminal = false) ∧
    ((e.after v.traced acts).run? id = none → ¬e.WasLeft v.traced acts id (fun _ => True) →
      (∃ y retries, e.executions.Reads y x ∧ y.isTerminal = true ∧
        (∀ s ∈ y.steps, s.isEnded = true) ∧
        y.Tells retries (TryEvent.of id (e.after v.traced acts).world.tries)) ∧
      ∀ before now lane later run, acts = before ++ (now, .ring (.wake id lane)) :: later →
        (e.after v.traced before).run? id = some run →
        (e.after v.traced (before ++ [(now, .ring (.wake id lane))])).run? id = none →
        e.executions.Reads (run.ending now
          (run.resumed v.traced now (e.after v.traced before).world lane)) x) := by
  have hk := after_sound (v := v) he.sound acts
  obtain ⟨n, hn, hread⟩ := entry_of_get hx
  have hblank : (e.core.standing id).Settled e.executions clock False False :=
    he.standing_eq id ▸ Standing.settled_blank
  obtain ⟨hnone, _⟩ | ⟨y, z, retries, hv, hstage⟩ := after_settled he.sound hblank acts hclock hstore
  · rw [hnone] at hn
    cases hn
  obtain ⟨m, hm, hy⟩ := hv.stored
  obtain rfl := Option.some.inj (hn.symm.trans hm)
  refine ⟨fun hflight => ?_, unended_iff_left he acts hclock hstore hx hanswered,
    fun hrun hstayed => ⟨?_, ?_⟩⟩
  · obtain ⟨run, timed, hrun, hwatch⟩ := (hk.standing id).called (List.contains_iff_mem.mpr hflight)
    exact hanswered ⟨run, timed, hrun, hwatch, trivial⟩
  · rw [show ((e.after v.traced acts).core.standing id).run = none from hrun] at hstage
    cases hstage with
    | «over» _ _ hsame hended hsteps =>
        subst hsame
        exact ⟨y, retries, ⟨n, hy, hread⟩, hended, hsteps, hv.tells⟩
    | left _ hL => exact absurd hL hstayed
  -- the reply that ended the run stored how it ended, and no later act changes the record
  · intro before now lane later run hacts hbefore hafter
    subst hacts
    have hkbefore := after_sound (v := v) he.sound before
    have hsettled := after_settled he.sound hblank before
      (fun a ha => hclock a (List.mem_append_left _ ha)) fun r hr => hstore r (hr.append _)
    have hwatch : run.watch ≠ .nobody := by
      intro hnobody
      obtain ⟨w, _, hstage⟩ := hsettled.of_run hbefore
      exact hstayed ((hstage.of_nobody hnobody).1.append _)
    rw [after_append] at hafter
    obtain ⟨k, hk', hending⟩ := (act_change (v := v) hkbefore (.ring (.wake id lane)) id).stores_end
      hsettled (hclock _ (by simp)) hbefore hwatch hafter
    have hlater := after_of_over (v := v) (act_sound hkbefore (.ring (.wake id lane))) hafter hk' later
    rw [← List.singleton_append, ← List.append_assoc, after_append, after_append] at hn
    obtain rfl := Option.some.inj (hn.symm.trans hlater)
    exact ⟨n, hending, hread⟩

/-- A caller that goes away while an action waits leaves a record that has not ended. -/
theorem record_settles_left :
    let e := start (.memory ⟨[.plain "rule" [.plain "action"]]⟩) (.memory .empty)
      ⟨[.waits .plain], []⟩
    let acts := [(.utc 0, .execute "rule" [] .empty none), (.utc 5, .abandon "exec_0001")]
    ∃ x, (e.after Environment.scripted.traced acts).executions.get "exec_0001" = .ok (some x) ∧
      x.isTerminal = false ∧
      e.WasLeft Environment.scripted.traced acts "exec_0001" fun y => y.isTerminal = false := by
  intro e acts
  have hstored : ((e.after Environment.scripted.traced acts).executions.get
      "exec_0001").toOption.join.map (·.isTerminal) = some false := by decide +kernel
  obtain ⟨x, hx, hopen⟩ := Outcome.found_of_map hstored
  have hnew : e.IsNew := start_is_new _ (fun _ => rfl) _
  have hclock : ∀ act ∈ acts, Clock.knowing.Shows act.1 := by simp [acts, Clock.knowing]; decide
  have hnone : ((e.after Environment.scripted.traced acts).run? "exec_0001").isNone = true := by
    decide +kernel
  have hanswered : ¬(e.after Environment.scripted.traced acts).IsCalled "exec_0001" fun _ => True := by
    rintro ⟨run, _, hrun, _⟩
    rw [hrun] at hnone
    cases hnone
  have hsettles := record_settles .scripted hnew acts "exec_0001" hclock
    (fun r _ => ExecutionStore.memory_keeps _ _ _) hx hanswered
  exact ⟨x, hx, hopen, hsettles.2.1.mp hopen⟩

end Engine

end Rulebook
