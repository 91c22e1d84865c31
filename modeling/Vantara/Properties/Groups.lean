import Vantara.Ledger.Boot

/-!
# Process groups and sessions

A process group should lie within one session, and the leader of a session
should lead its group.  Both hold as long as no process that has left members
behind in the group it once founded starts a session.
-/

namespace Vantara

open Foundation

namespace Ledger

variable {ledger after : Ledger}

/-- Process groups lie within sessions. -/
structure Grouped (ledger : Ledger) : Prop where
  together : ledger.sheet.card pid = some card → ledger.sheet.card other = some otherCard →
    card.title.group = otherCard.title.group → card.title.session = otherCard.title.session
  leader : ledger.sheet.card pid = some card → card.title.session = pid → card.title.group = pid
  /-- The process after which a group is named belongs to the session of the group. -/
  founder : ledger.sheet.card pid = some card →
    ledger.sheet.card card.title.group = some founderCard →
    founderCard.title.session = card.title.session
  /-- Groups and sessions are not named after processes yet to come. -/
  drawn : ledger.sheet.card pid = some card →
    card.title.group.toNat < ledger.sheet.bound ∧ card.title.session.toNat < ledger.sheet.bound
  unqueued : ledger.sheet.card pid = some card → program ∈ ledger.queue →
    card.title.group ≠ program.pid ∧ card.title.session ≠ program.pid

/-- Cards vanish or change in other respects. -/
theorem Grouped.of_titles
    (grouped : ledger.Grouped)
    (titles : ∀ {pid card}, after.sheet.card pid = some card →
      ∃ old, ledger.sheet.card pid = some old ∧ card.title.group = old.title.group ∧
        card.title.session = old.title.session)
    (bound : after.sheet.bound = ledger.sheet.bound)
    (queue : ∀ program ∈ after.queue, program ∈ ledger.queue) :
    after.Grouped where
  together inSheet inSheetOther same := by
    obtain ⟨old, found, group, session⟩ := titles inSheet
    obtain ⟨otherOld, otherFound, otherGroup, otherSession⟩ := titles inSheetOther
    rw [group, otherGroup] at same
    rw [session, otherSession]
    exact grouped.together found otherFound same
  leader inSheet leads := by
    obtain ⟨old, found, group, session⟩ := titles inSheet
    rw [session] at leads
    rw [group]
    exact grouped.leader found leads
  founder inSheet inSheetFounder := by
    obtain ⟨old, found, group, session⟩ := titles inSheet
    obtain ⟨founderOld, founderFound, -, founderSession⟩ := titles inSheetFounder
    rw [group] at founderFound
    rw [session, founderSession]
    exact grouped.founder found founderFound
  drawn inSheet := by
    obtain ⟨old, found, group, session⟩ := titles inSheet
    rw [group, session, bound]
    exact grouped.drawn found
  unqueued inSheet listed := by
    obtain ⟨old, found, group, session⟩ := titles inSheet
    rw [group, session]
    exact grouped.unqueued found (queue _ listed)

/-- One card changes in other respects. -/
theorem Grouped.setCard {changed : Card}
    (grouped : ledger.Grouped)
    (found : ledger.sheet.card pid = some card)
    (group : changed.title.group = card.title.group)
    (session : changed.title.session = card.title.session) :
    (ledger.setCard pid changed).Grouped := by
  refine grouped.of_titles (fun inSheet => ?_) rfl fun _ listed => listed
  simp only [setCard_sheet, Sheet.setCard_card] at inSheet
  split_ifs at inSheet with same
  · cases inSheet
    exact ⟨card, same ▸ found, group, session⟩
  · exact ⟨_, inSheet, rfl, rfl⟩

/-- A program enters the processor in the group of its parent, or in its own. -/
theorem Grouped.launch
    (grouped : ledger.Grouped)
    (filed : ledger.Filed)
    (queued : ledger.queue = program :: rest)
    (root : Option UInt64) (main : Tid) :
    Grouped
      { ledger with
        sheet := (takeRoot ledger.sheet root).setCard program.pid
          (ProcessTable.launchedCard ledger.sheet program.pid program.parentPid root main)
        queue := rest } := by
  have listed : program ∈ ledger.queue := queued ▸ List.mem_cons_self
  obtain ⟨absent, drawn, -⟩ := filed.queued listed
  have distinct := filed.distinct
  rw [queued, List.map_cons, List.nodup_cons] at distinct
  generalize isLaunched : ProcessTable.launchedCard ledger.sheet program.pid program.parentPid root
    main = launched
  -- The new process shares group and session with its parent, or founds both.
  have job : (launched.title.group = program.pid ∧ launched.title.session = program.pid) ∨
      ∃ parent card, ledger.sheet.card parent = some card ∧
        launched.title.group = card.title.group ∧
        launched.title.session = card.title.session := by
    subst isLaunched
    unfold ProcessTable.launchedCard
    cases parentCard : program.parentPid.bind ledger.sheet.card with
    | none => exact .inl ⟨rfl, rfl⟩
    | some card =>
      obtain ⟨parent, -, inSheet⟩ := Option.bind_eq_some_iff.mp parentCard
      cases kind : card.title.kind with
      | kernelTask => exact .inl (by simp [kind])
      | userProcess => exact .inr ⟨parent, card, inSheet, by simp [kind], by simp [kind]⟩
  -- No group or session so far is named after the new process.
  have old : ∀ {pid card}, ledger.sheet.card pid = some card →
      card.title.group ≠ program.pid ∧ card.title.session ≠ program.pid :=
    fun inSheet => grouped.unqueued inSheet listed
  have lookup : ∀ {pid card}, ((takeRoot ledger.sheet root).setCard program.pid launched).card pid =
      some card → pid = program.pid ∧ card = launched ∨
        pid ≠ program.pid ∧ ledger.sheet.card pid = some card := by
    intro pid card inSheet
    simp only [Sheet.setCard_card, takeRoot_card] at inSheet
    split_ifs at inSheet with same
    · cases inSheet
      exact .inl ⟨same, rfl⟩
    · exact .inr ⟨same, inSheet⟩
  have mixed : ∀ {pid card}, ledger.sheet.card pid = some card →
      card.title.group = launched.title.group → card.title.session = launched.title.session := by
    intro pid card inSheet same
    obtain ⟨group, -⟩ | ⟨parent, parentCard, parentFound, group, session⟩ := job
    · exact absurd (same.trans group) (old inSheet).1
    · rw [session]
      exact grouped.together inSheet parentFound (same.trans group)
  constructor
  · intro pid card other otherCard inSheet inSheetOther same
    obtain ⟨-, rfl⟩ | ⟨-, found⟩ := lookup inSheet <;>
      obtain ⟨-, rfl⟩ | ⟨-, hasOther⟩ := lookup inSheetOther
    · rfl
    · exact (mixed hasOther same.symm).symm
    · exact mixed found same
    · exact grouped.together found hasOther same
  · intro pid card inSheet leads
    obtain ⟨rfl, rfl⟩ | ⟨-, found⟩ := lookup inSheet
    · obtain ⟨group, -⟩ | ⟨parent, parentCard, parentFound, group, session⟩ := job
      · exact group
      · exact absurd (session.symm.trans leads) (old parentFound).2
    · exact grouped.leader found leads
  · intro pid card founderCard inSheet inSheetFounder
    obtain ⟨-, rfl⟩ | ⟨-, found⟩ := lookup inSheet <;>
      obtain ⟨isNew, rfl⟩ | ⟨-, foundFounder⟩ := lookup inSheetFounder
    · rfl
    · obtain ⟨group, -⟩ | ⟨parent, parentCard, parentFound, group, session⟩ := job
      · rw [group, absent] at foundFounder
        cases foundFounder
      · rw [group] at foundFounder
        rw [session]
        exact grouped.founder parentFound foundFounder
    · exact absurd isNew (old found).1
    · exact grouped.founder found foundFounder
  · intro pid card inSheet
    obtain ⟨-, rfl⟩ | ⟨-, found⟩ := lookup inSheet
    · obtain ⟨group, session⟩ | ⟨parent, parentCard, parentFound, group, session⟩ := job
      · rw [group, session]
        exact ⟨drawn, drawn⟩
      · rw [group, session]
        exact grouped.drawn parentFound
    · exact grouped.drawn found
  · intro pid card other inSheet waits
    have queuedOther : other ∈ ledger.queue := queued ▸ List.mem_cons_of_mem _ waits
    obtain ⟨-, rfl⟩ | ⟨-, found⟩ := lookup inSheet
    · obtain ⟨group, session⟩ | ⟨parent, parentCard, parentFound, group, session⟩ := job
      · have differ : program.pid ≠ other.pid := fun same =>
          distinct.1 (List.mem_map.mpr ⟨other, waits, same.symm⟩)
        rw [group, session]
        exact ⟨differ, differ⟩
      · rw [group, session]
        exact grouped.unqueued parentFound queuedOther
    · exact grouped.unqueued found queuedOther

/-- Groups and sessions are named after processes that have been started. -/
theorem Grouped.known
    (grouped : ledger.Grouped)
    (filed : ledger.Filed)
    (named : ledger.sheet.card name ≠ none ∨ ∃ member card,
      ledger.sheet.card member = some card ∧
        (card.title.group = name ∨ card.title.session = name)) :
    name.toNat < ledger.sheet.bound ∧ ∀ program ∈ ledger.queue, name ≠ program.pid := by
  obtain present | ⟨member, card, inSheet, rfl | rfl⟩ := named
  · obtain ⟨card, inSheet⟩ := Option.ne_none_iff_exists'.mp present
    refine ⟨filed.drawn inSheet, ?_⟩
    rintro program listed rfl
    exact present (filed.queued listed).1
  · exact ⟨(grouped.drawn inSheet).1, fun _ listed => (grouped.unqueued inSheet listed).1⟩
  · exact ⟨(grouped.drawn inSheet).2, fun _ listed => (grouped.unqueued inSheet listed).2⟩

/-- One card gets another group or session. -/
theorem Grouped.retitle
    (grouped : ledger.Grouped)
    (found : ledger.sheet.card pid = some card)
    (knownGroup : changed.title.group.toNat < ledger.sheet.bound ∧
      ∀ program ∈ ledger.queue, changed.title.group ≠ program.pid)
    (knownSession : changed.title.session.toNat < ledger.sheet.bound ∧
      ∀ program ∈ ledger.queue, changed.title.session ≠ program.pid)
    (together : ∀ other otherCard, other ≠ pid → ledger.sheet.card other = some otherCard →
      otherCard.title.group = changed.title.group →
      otherCard.title.session = changed.title.session)
    (leader : changed.title.session = pid → changed.title.group = pid)
    (founder : ∀ founderCard, changed.title.group ≠ pid →
      ledger.sheet.card changed.title.group = some founderCard →
      founderCard.title.session = changed.title.session)
    (founded : ∀ other otherCard, other ≠ pid → ledger.sheet.card other = some otherCard →
      otherCard.title.group = pid → changed.title.session = otherCard.title.session) :
    (ledger.setCard pid changed).Grouped := by
  have lookup : ∀ {other otherCard}, (ledger.setCard pid changed).sheet.card other =
      some otherCard → other = pid ∧ otherCard = changed ∨
        other ≠ pid ∧ ledger.sheet.card other = some otherCard := by
    intro other otherCard inSheet
    simp only [setCard_sheet, Sheet.setCard_card] at inSheet
    split_ifs at inSheet with same
    · cases inSheet
      exact .inl ⟨same, rfl⟩
    · exact .inr ⟨same, inSheet⟩
  constructor
  · intro one oneCard other otherCard inSheet inSheetOther same
    obtain ⟨-, rfl⟩ | ⟨differ, inOld⟩ := lookup inSheet <;>
      obtain ⟨-, rfl⟩ | ⟨differentOther, inOldOther⟩ := lookup inSheetOther
    · rfl
    · exact (together _ _ differentOther inOldOther same.symm).symm
    · exact together _ _ differ inOld same
    · exact grouped.together inOld inOldOther same
  · intro one oneCard inSheet leads
    obtain ⟨rfl, rfl⟩ | ⟨-, inOld⟩ := lookup inSheet
    · exact leader leads
    · exact grouped.leader inOld leads
  · intro one oneCard founderCard inSheet inSheetFounder
    obtain ⟨-, rfl⟩ | ⟨differ, inOld⟩ := lookup inSheet <;>
      obtain ⟨isSelf, rfl⟩ | ⟨notSelf, inOldFounder⟩ := lookup inSheetFounder
    · rfl
    · exact founder founderCard notSelf inOldFounder
    · exact founded _ _ differ inOld isSelf
    · exact grouped.founder inOld inOldFounder
  · intro one oneCard inSheet
    obtain ⟨-, rfl⟩ | ⟨-, inOld⟩ := lookup inSheet
    · exact ⟨knownGroup.1, knownSession.1⟩
    · exact grouped.drawn inOld
  · intro one oneCard program inSheet waits
    obtain ⟨-, rfl⟩ | ⟨-, inOld⟩ := lookup inSheet
    · exact ⟨knownGroup.2 program waits, knownSession.2 program waits⟩
    · exact grouped.unqueued inOld waits

/-- No process is left behind in the group of a process that starts a session. -/
def LeavesNobody (ledger : Ledger) : Entry → Prop
  | .lead pid =>
    (∀ card, ledger.sheet.card pid = some card → card.title.group = pid) ∨
      ∀ other card, other ≠ pid → ledger.sheet.card other = some card → card.title.group ≠ pid
  | _ => True

/-- Every entry keeps process groups within sessions, unless a session starts that
leaves somebody behind. -/
theorem Grouped.preserved
    (grouped : ledger.Grouped)
    (filed : ledger.Filed)
    (leaves : ledger.LeavesNobody entry)
    (posts : Posts ledger entry after) :
    after.Grouped := by
  cases posts with
  | launch main queued => exact grouped.launch filed queued _ main
  | draw =>
    refine ⟨grouped.together, grouped.leader, grouped.founder, fun inSheet => ?_, ?_⟩
    · obtain ⟨group, session⟩ := grouped.drawn inSheet
      exact ⟨Nat.lt_succ_of_lt group, Nat.lt_succ_of_lt session⟩
    · intro pid card program inSheet listed
      rcases List.mem_append.mp listed with old | new
      · exact grouped.unqueued inSheet old
      · obtain rfl := List.mem_singleton.mp new
        obtain ⟨group, session⟩ := grouped.drawn inSheet
        refine ⟨?_, ?_⟩
        · rintro same
          rw [same] at group
          omega
        · rintro same
          rw [same] at session
          omega
  | drop queued =>
    refine grouped.of_titles (fun inSheet => ⟨_, inSheet, rfl, rfl⟩) rfl fun program listed => ?_
    exact queued ▸ List.mem_cons_of_mem _ listed
  | finish found _ released =>
    have closed := @Grouped.setCard _ _ _ (Card.close _) grouped found rfl rfl
    refine closed.of_titles (fun inSheet => ⟨_, ?_, rfl, rfl⟩) ?_ fun _ listed => listed
    · exact (congrFun (congrArg Sheet.card released.rest) _).symm.trans inSheet
    · exact (congrArg Sheet.bound released.rest).trans rfl
  | giveUp found | credit _ found | dispose _ found | mask _ found | pend found | enter _ found
  | leave found => exact grouped.setCard found rfl rfl
  | forget forgets =>
    refine grouped.of_titles (fun inSheet => ⟨_, ?_, rfl, rfl⟩) ?_ fun _ listed => listed
    · rcases forgets.kept _ with same | ⟨gone, -⟩
      · exact same.symm.trans inSheet
      · cases gone.symm.trans inSheet
    · exact (congrArg Sheet.bound forgets.rest).trans rfl
  | @regroup _ _ target card joined _ found session follower joins =>
    have sameSession : ∀ other otherCard, ledger.sheet.card other = some otherCard →
        otherCard.title.group = joined → otherCard.title.session = card.title.session := by
      intro other otherCard inSheet isJoined
      obtain rfl | ⟨member, memberCard, memberFound, memberSession, memberGroup⟩ := joins
      · exact (grouped.founder inSheet (isJoined ▸ found)).symm
      · rw [session, ← memberSession]
        exact grouped.together inSheet memberFound (isJoined.trans memberGroup.symm)
    refine grouped.retitle found ?_ (grouped.known filed (.inr ⟨target, card, found, .inr rfl⟩))
      ?_ ?_ ?_ ?_
    · obtain rfl | ⟨member, memberCard, memberFound, -, memberGroup⟩ := joins
      · exact grouped.known filed (.inl (by simp [found]))
      · exact grouped.known filed (.inr ⟨member, memberCard, memberFound, .inl memberGroup⟩)
    · exact fun other otherCard _ inSheet isJoined => sameSession other otherCard inSheet isJoined
    · exact fun leads => absurd leads follower
    · intro founderCard _ inSheet
      obtain rfl | ⟨member, memberCard, memberFound, memberSession, memberGroup⟩ := joins
      · cases found.symm.trans inSheet
        rfl
      · have ofMember := grouped.founder memberFound (memberGroup ▸ inSheet)
        exact ofMember.trans (memberSession.trans session.symm)
    · intro other otherCard _ inSheet isTarget
      have ofTarget : card.title.session = otherCard.title.session :=
        grouped.founder inSheet (isTarget ▸ found)
      exact ofTarget
  | @lead _ card found follower =>
    have nobody := leaves.resolve_left fun leads => follower (leads card found)
    refine grouped.retitle found ?_ ?_ ?_ (fun _ => rfl) ?_ ?_
    · exact grouped.known filed (.inl (by simp [found]))
    · exact grouped.known filed (.inl (by simp [found]))
    · intro other otherCard differ inSheet isLed
      exact absurd isLed (nobody other otherCard differ inSheet)
    · exact fun _ notSelf => absurd rfl notSelf
    · intro other otherCard differ inSheet isLed
      exact absurd isLed (nobody other otherCard differ inSheet)
  | own =>
    exact ⟨grouped.together, grouped.leader, grouped.founder, grouped.drawn, grouped.unqueued⟩

theorem AtBoot.grouped (atBoot : ledger.AtBoot frames) :
    ledger.Grouped where
  together inSheet inSheetOther _ := by
    rw [(atBoot.kernelTask inSheet).2.session, (atBoot.kernelTask inSheetOther).2.session]
  leader inSheet _ := by
    obtain ⟨rfl, isKernel⟩ := atBoot.kernelTask inSheet
    exact isKernel.group
  founder inSheet inSheetFounder := by
    rw [(atBoot.kernelTask inSheet).2.session, (atBoot.kernelTask inSheetFounder).2.session]
  drawn inSheet := by
    obtain ⟨rfl, isKernel⟩ := atBoot.kernelTask inSheet
    rw [isKernel.group, isKernel.session]
    exact ⟨atBoot.filed.drawn inSheet, atBoot.filed.drawn inSheet⟩
  unqueued inSheet listed := by
    obtain ⟨rfl, isKernel⟩ := atBoot.kernelTask inSheet
    rw [isKernel.group, isKernel.session, (atBoot.first listed).1]
    decide

end Ledger

namespace Kernel

variable {kernel : Kernel} {images : List UserlandImage} {frames : List UInt64}

/-- A process that asks for a session either still leads the group that has its
name, and is refused, or has left nobody behind in that group. -/
def leavesNobodyBehind (kernel : Kernel) (action : Action) : Bool :=
  match action with
  | .syscall frame _ =>
    decide (Syscall.decode frame.number ≠ some .setsid) ||
      kernel.currentProcess.all fun caller =>
        decide (caller.processGroupId = caller.pid) ||
          kernel.table.values.all fun process =>
            decide (process.pid = caller.pid ∨ process.processGroupId ≠ caller.pid)
  | _ => true

theorem leavesNobody_of_caused {ledger : Ledger}
    (permitted : kernel.leavesNobodyBehind action = true)
    (caused : kernel.Causes action ledger entry) :
    ledger.LeavesNobody entry := by
  cases entry with
  | lead pid =>
    obtain ⟨frame, env, call, rfl, decoded, rfl, rfl, isCaller⟩ | absurdity := caused
    · cases found : kernel.table.get pid with
      | none =>
        refine .inl fun card inSheet => ?_
        simp [found] at inSheet
      | some caller =>
        obtain rfl := ProcessTable.pid_of_get found
        simp only [leavesNobodyBehind, decoded, currentProcess, isCaller, Option.bind_some,
          found, Option.all_some, Bool.or_eq_true, decide_eq_true_eq, ne_eq, not_true_eq_false,
          false_or, List.all_eq_true] at permitted
        refine permitted.imp (fun leads card inSheet => ?_) ?_
        · cases (ProcessTable.card_of_get found).symm.trans inSheet
          exact leads
        · intro nobody other card differ inSheet
          obtain ⟨process, inTable, rfl⟩ := Option.map_eq_some_iff.mp inSheet
          obtain rfl := ProcessTable.pid_of_get inTable
          exact (nobody process (KeyedStore.mem_of_get inTable)).resolve_left differ
    · exact absurdity.elim
  | _ => trivial

/-- A process group lies within one session, and the leader of a session leads its
group, in every run in which sessions leave nobody behind. -/
theorem groups_within_sessions
    (reachable : Transition.ReachableWhere step
      (fun kernel action => kernel.leavesNobodyBehind action = true) (boot images frames)
      kernel) :
    (∀ first ∈ kernel.table.values, ∀ second ∈ kernel.table.values,
      first.processGroupId = second.processGroupId → first.sessionId = second.sessionId) ∧
    ∀ process ∈ kernel.table.values, process.sessionId = process.pid →
      process.processGroupId = process.pid := by
  have grouped : kernel.ledger.Grouped := by
    refine ledger_invariant (atBoot_boot images frames).grouped ?_ reachable
    intro before action orderly permitted _ ledger entry after filed grouped caused posts
    exact grouped.preserved filed (leavesNobody_of_caused permitted caused) posts
  have card : ∀ process ∈ kernel.table.values,
      kernel.ledger.sheet.card process.pid = some process.card := fun process listed =>
    ProcessTable.card_of_get (KeyedStore.get_of_mem listed)
  constructor
  · intro first firstListed second secondListed same
    exact grouped.together (card first firstListed) (card second secondListed) same
  · intro process listed leads
    exact grouped.leader (card process listed) leads

/-- A shell is started that leads a session of its own. -/
def leaderRun : List Action :=
  Sample.loadShell ++ [Sample.call 49 0 0]

/-- The state after that run. -/
def leaderKernel : Kernel :=
  (Transition.runWhere step leavesNobodyBehind Sample.machine leaderRun).get (by decide +kernel)

theorem groups_within_sessions_leaderRun :
    Transition.runWhere step leavesNobodyBehind Sample.machine leaderRun = some leaderKernel ∧
      (leaderKernel.table.values.map fun process => (process.pid, process.sessionId)) =
        [(0, 0), (1, 1), (2, 2)] ∧
      (∀ first ∈ leaderKernel.table.values, ∀ second ∈ leaderKernel.table.values,
        first.processGroupId = second.processGroupId → first.sessionId = second.sessionId) ∧
      ∀ process ∈ leaderKernel.table.values, process.sessionId = process.pid →
        process.processGroupId = process.pid := by
  have performed : Transition.runWhere step leavesNobodyBehind Sample.machine leaderRun =
      some leaderKernel := (Option.some_get _).symm
  exact ⟨performed, by decide +kernel,
    groups_within_sessions (Transition.reachableWhere_of_runWhere performed)⟩

/-- A shell founds a group, starts a program in it, returns to the group it came
from and starts a session. -/
def deserterRun : List Action :=
  Sample.loadShell ++ [Sample.call 47 0 0, Sample.execShell, Sample.call 17 0 0, .input none,
    Sample.load, Sample.call 17 0 0, Sample.call 17 0 0, Sample.call 47 0 1, Sample.call 49 0 0]

/-- Processes 2 and 3 end up in one group but in two sessions. -/
theorem deserterRun_spans_sessions :
    (Transition.run step Sample.machine deserterRun).map
        (fun kernel => kernel.table.values.map fun process =>
          (process.pid, process.processGroupId, process.sessionId)) =
      some [(0, 0, 0), (1, 1, 1), (2, 2, 2), (3, 2, 1)] := by
  decide +kernel

end Kernel

end Vantara
