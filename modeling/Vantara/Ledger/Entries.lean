import Vantara.Ledger.Accounts
import Vantara.Ledger.Processor
import Vantara.Lifecycle.Steady

/-!
# Entries in the ledger

The ledger is the sheet of the process table together with what processes have
opened and the programs that wait to be loaded.  An entry is one thing that can
happen to it.  Whatever holds of the ledger at boot and is preserved by every
entry holds in all reachable states.
-/

namespace Vantara

/-- What is written down in the whole kernel. -/
@[ext]
structure Ledger where
  sheet : Sheet
  /-- What processes have opened. -/
  ipc : Ipc
  /-- The programs that wait to be loaded, first come first served. -/
  queue : List UserProgram

/-- The things that can happen to the ledger. -/
inductive Entry
  /-- A loaded program becomes a process. -/
  | launch (program : UserProgram) (root : Option UInt64)
  /-- A program is requested under a fresh process identifier. -/
  | draw (program : UserProgram)
  /-- A program could not be loaded. -/
  | drop (program : UserProgram)
  /-- A process ends and everything it held is released. -/
  | finish (pid : Pid)
  /-- The record of a process is given up, whatever state it was in. -/
  | giveUp (pid : Pid)
  /-- Records of ended processes are forgotten. -/
  | forget
  /-- A process joins or founds a process group. -/
  | regroup (caller target : Pid)
  /-- A process leads a new session. -/
  | lead (pid : Pid)
  /-- A process acts on behalf of another user. -/
  | credit (pid : Pid)
  /-- A process replaces its signal disposition. -/
  | dispose (pid : Pid)
  /-- A process replaces its signal mask, and a signal it lets through is taken. -/
  | mask (pid : Pid)
  /-- A signal becomes pending for a process. -/
  | pend (pid : Pid)
  /-- A thread enters a signal handler. -/
  | enter (pid : Pid) (tid : Tid) (original : UserResumeContext)
  /-- A thread returns from its signal handler. -/
  | leave (pid : Pid) (tid : Tid)
  /-- A process opens, uses or closes something. -/
  | own (pid : Pid)

namespace Ledger

/-- The ledger with another sheet. -/
@[simps]
def setSheet (ledger : Ledger) (sheet : Sheet) : Ledger :=
  { ledger with sheet := sheet }

/-- The ledger with one card replaced. -/
def setCard (ledger : Ledger) (pid : Pid) (card : Card) : Ledger :=
  ledger.setSheet (ledger.sheet.setCard pid card)

@[simp] theorem setCard_sheet {ledger : Ledger} :
    (ledger.setCard pid card).sheet = ledger.sheet.setCard pid card := rfl

/-- The sheet on which a root has been taken, if any was free. -/
@[simps]
def takeRoot (sheet : Sheet) (root : Option UInt64) : Sheet :=
  { sheet with used := { used | some used = root ∨ used ∈ sheet.used } }

end Ledger

/-- A card of a user process that has not ended. -/
structure Card.Lives (card : Card) : Prop where
  user : card.title.kind = .userProcess
  live : card.ended = false

/-- The effects of the entries. -/
inductive Posts (ledger : Ledger) : Entry → Ledger → Prop
  | launch
      (main : Tid)
      (queued : ledger.queue = program :: rest)
      (free : ledger.sheet.distinct → ∀ own, root = some own → own ∉ ledger.sheet.used) :
      Posts ledger (.launch program root)
        { ledger with
          sheet := (Ledger.takeRoot ledger.sheet root).setCard program.pid
            (ProcessTable.launchedCard ledger.sheet program.pid program.parentPid root main)
          queue := rest }
  | draw
      (drawn : program.pid.toNat = ledger.sheet.bound)
      (isUser : ¬Kernel.asksForKernel program) :
      Posts ledger (.draw program)
        { ledger with
          sheet := { ledger.sheet with bound := ledger.sheet.bound + 1 }
          queue := ledger.queue ++ [program] }
  | drop
      (queued : ledger.queue = program :: rest) :
      Posts ledger (.drop program) { ledger with queue := rest }
  | finish
      (found : ledger.sheet.card pid = some card)
      (lives : card.Lives)
      (released : (ledger.sheet.setCard pid card.close).Releases card.title.root sheet) :
      Posts ledger (.finish pid)
        { ledger with sheet := sheet, ipc := ledger.ipc.closeProcessFiles pid }
  | giveUp
      (found : ledger.sheet.card pid = some card) :
      Posts ledger (.giveUp pid) (ledger.setCard pid card.close)
  | forget
      (forgets : ledger.sheet.Forgets sheet) :
      Posts ledger .forget (ledger.setSheet sheet)
  | regroup
      (foundCaller : ledger.sheet.card caller = some callerCard)
      (found : ledger.sheet.card target = some card)
      (session : card.title.session = callerCard.title.session)
      (follower : card.title.session ≠ target)
      (joins : joined = target ∨ ∃ member memberCard,
        ledger.sheet.card member = some memberCard ∧
          memberCard.title.session = callerCard.title.session ∧
          memberCard.title.group = joined) :
      Posts ledger (.regroup caller target)
        (ledger.setCard target (card.retitle fun title => { title with group := joined }))
  | lead
      (found : ledger.sheet.card pid = some card)
      (follower : card.title.group ≠ pid) :
      Posts ledger (.lead pid)
        (ledger.setCard pid
          (card.retitle fun title => { title with group := pid, session := pid }))
  | credit
      (credentials : ProcessCredentials)
      (found : ledger.sheet.card pid = some card) :
      Posts ledger (.credit pid)
        (ledger.setCard pid (card.retitle fun title => { title with credentials := credentials }))
  | dispose
      (disposition : UInt64)
      (found : ledger.sheet.card pid = some card) :
      Posts ledger (.dispose pid)
        (ledger.setCard pid (card.retitle fun title => { title with disposition := disposition }))
  | mask
      (blocked : UInt64)
      (found : ledger.sheet.card pid = some card)
      (lives : card.Lives) :
      Posts ledger (.mask pid)
        (ledger.setCard pid (card.retitle fun title =>
          { title with
            blocked := blocked
            pending := ProcessTable.stillPending title.pending blocked }))
  | pend
      (found : ledger.sheet.card pid = some card)
      (lives : card.Lives) :
      Posts ledger (.pend pid)
        (ledger.setCard pid (card.retitle fun title =>
          { title with pending := title.pending ||| sigtermMask }))
  | enter
      (original : UserResumeContext)
      (found : ledger.sheet.card pid = some card)
      (lives : card.Lives)
      (idle : card.handlers tid = none) :
      Posts ledger (.enter pid tid original)
        (ledger.setCard pid (card.setHandler tid (some original)))
  | leave
      (found : ledger.sheet.card pid = some card)
      (lives : card.Lives) :
      Posts ledger (.leave pid tid) (ledger.setCard pid (card.setHandler tid none))
  | own
      (ipc : Ipc)
      (accounts : ledger.ipc.drawsFresh = true → ledger.ipc.Accounts → ipc.Accounts) :
      Posts ledger (.own pid) { ledger with ipc := ipc }

theorem Posts.of_eq (posts : Posts ledger entry after) (same : other = after) :
    Posts ledger entry other :=
  same ▸ posts

/-- The ledger is in order. -/
structure Ledger.Filed (ledger : Ledger) : Prop where
  tidy : ledger.sheet.Tidy
  drawn : ledger.sheet.card pid = some card → pid.toNat < ledger.sheet.bound
  queued : program ∈ ledger.queue → ledger.sheet.card program.pid = none ∧
    program.pid.toNat < ledger.sheet.bound ∧ ¬Kernel.asksForKernel program
  distinct : (ledger.queue.map UserProgram.pid).Nodup

namespace Ledger.Filed

variable {ledger : Ledger}

/-- One card changes. -/
theorem setCard
    (filed : ledger.Filed)
    (found : ledger.sheet.card pid = some card)
    (loose : changed.loose = card.loose) :
    (ledger.setCard pid changed).Filed where
  tidy := filed.tidy.setCard (loose ▸ filed.tidy.2 pid card found)
  drawn := by
    intro other otherCard inSheet
    simp only [setCard_sheet, Sheet.setCard_card] at inSheet
    split_ifs at inSheet with same
    · subst same
      exact filed.drawn found
    · exact filed.drawn inSheet
  queued := by
    intro program queued
    obtain ⟨absent, rest⟩ := filed.queued queued
    refine ⟨?_, rest⟩
    simp only [setCard_sheet, Sheet.setCard_card]
    rw [if_neg]
    · exact absent
    · rintro rfl
      rw [absent] at found
      cases found
  distinct := filed.distinct

/-- Cards vanish, or something changes that is not on the cards. -/
theorem of_cards {after : Ledger}
    (filed : ledger.Filed)
    (cards : ∀ {pid card}, after.sheet.card pid = some card → ledger.sheet.card pid = some card)
    (fresh : after.sheet.fresh = ledger.sheet.fresh)
    (bound : after.sheet.bound = ledger.sheet.bound)
    (queue : after.queue = ledger.queue) :
    after.Filed where
  tidy := ⟨fresh ▸ filed.tidy.1, fun pid card inSheet => filed.tidy.2 pid card (cards inSheet)⟩
  drawn inSheet := bound ▸ filed.drawn (cards inSheet)
  queued := by
    intro program listed
    obtain ⟨absent, rest⟩ := filed.queued (queue ▸ listed)
    refine ⟨?_, bound ▸ rest⟩
    by_contra present
    obtain ⟨card, inSheet⟩ := Option.ne_none_iff_exists'.mp present
    rw [cards inSheet] at absent
    cases absent
  distinct := queue ▸ filed.distinct

/-- Every entry leaves the ledger in order. -/
theorem preserved (filed : ledger.Filed) (posts : Posts ledger entry after) : after.Filed := by
  cases posts with
  | @launch _ rest _ _ queued =>
    have distinct := filed.distinct
    rw [queued, List.map_cons, List.nodup_cons] at distinct
    obtain ⟨absent, bound, isUser⟩ := filed.queued (queued ▸ List.mem_cons_self)
    refine ⟨?_, ?_, ?_, distinct.2⟩
    · exact Sheet.Tidy.setCard filed.tidy (by exact id)
    · intro other card inSheet
      simp only [Sheet.setCard_card] at inSheet
      split_ifs at inSheet with same
      · subst same
        exact bound
      · exact filed.drawn inSheet
    · intro other listed
      obtain ⟨otherAbsent, rest⟩ := filed.queued (queued ▸ List.mem_cons_of_mem _ listed)
      refine ⟨?_, rest⟩
      simp only [Sheet.setCard_card]
      rw [if_neg]
      · exact otherAbsent
      · intro same
        exact distinct.1 (List.mem_map.mpr ⟨other, listed, same⟩)
  | draw drawn isUser =>
    refine ⟨filed.tidy, fun inSheet => Nat.lt_succ_of_lt (filed.drawn inSheet), ?_, ?_⟩
    · intro other listed
      rcases List.mem_append.mp listed with old | new
      · obtain ⟨absent, bound, rest⟩ := filed.queued old
        exact ⟨absent, Nat.lt_succ_of_lt bound, rest⟩
      · obtain rfl := List.mem_singleton.mp new
        refine ⟨?_, drawn ▸ Nat.lt_succ_self _, isUser⟩
        by_contra present
        obtain ⟨card, inSheet⟩ := Option.ne_none_iff_exists'.mp present
        have earlier := filed.drawn inSheet
        omega
    · rw [List.map_append, List.map_singleton, List.nodup_append]
      refine ⟨filed.distinct, List.nodup_singleton _, ?_⟩
      intro pid listed other isNew same
      obtain ⟨queued, queuedMem, rfl⟩ := List.mem_map.mp listed
      obtain rfl := List.mem_singleton.mp isNew
      have earlier := (filed.queued queuedMem).2.1
      rw [same] at earlier
      omega
  | drop queued =>
    have distinct := filed.distinct
    rw [queued, List.map_cons, List.nodup_cons] at distinct
    exact ⟨filed.tidy, filed.drawn,
      fun listed => filed.queued (queued ▸ List.mem_cons_of_mem _ listed), distinct.2⟩
  | finish found _ released =>
    have closed := @setCard _ _ _ (Card.close _) filed found rfl
    refine closed.of_cards (fun inSheet => ?_) ?_ ?_ rfl
    · exact (congrFun (congrArg Sheet.card released.rest) _).symm.trans inSheet
    · exact (congrArg Sheet.fresh released.rest).trans rfl
    · exact (congrArg Sheet.bound released.rest).trans rfl
  | giveUp found | regroup _ found | lead found | credit _ found | dispose _ found | mask _ found
  | pend found | enter _ found | leave found =>
    exact filed.setCard found rfl
  | forget forgets =>
    refine filed.of_cards (fun inSheet => ?_) ?_ ?_ rfl
    · rcases forgets.kept _ with same | ⟨gone, -⟩
      · exact same.symm.trans inSheet
      · cases gone.symm.trans inSheet
    · exact (congrArg Sheet.fresh forgets.rest).trans rfl
    · exact (congrArg Sheet.bound forgets.rest).trans rfl
  | own => exact ⟨filed.tidy, filed.drawn, filed.queued, filed.distinct⟩

end Ledger.Filed

/-- What an entry does to the card of a process that has one before and after it. -/
inductive Amends (pid : Pid) (card : Card) : Entry → Card → Prop
  | untouched : Amends pid card entry card
  | finish (lives : card.Lives) : Amends pid card (.finish pid) card.close
  | giveUp : Amends pid card (.giveUp pid) card.close
  | regroup : Amends pid card (.regroup caller pid)
      (card.retitle fun title => { title with group := joined })
  | lead : Amends pid card (.lead pid)
      (card.retitle fun title => { title with group := pid, session := pid })
  | credit : Amends pid card (.credit pid)
      (card.retitle fun title => { title with credentials := credentials })
  | dispose : Amends pid card (.dispose pid)
      (card.retitle fun title => { title with disposition := disposition })
  | mask (blocked : UInt64) (lives : card.Lives) : Amends pid card (.mask pid)
      (card.retitle fun title =>
        { title with
          blocked := blocked
          pending := ProcessTable.stillPending title.pending blocked })
  | pend (lives : card.Lives) : Amends pid card (.pend pid)
      (card.retitle fun title => { title with pending := title.pending ||| sigtermMask })
  | enter (lives : card.Lives) (idle : card.handlers tid = none) :
      Amends pid card (.enter pid tid original) (card.setHandler tid (some original))
  | leave (lives : card.Lives) : Amends pid card (.leave pid tid) (card.setHandler tid none)

/-- A card after an entry is that of a new process, or a card from before as the
entry has amended it. -/
theorem Posts.card (posts : Posts ledger entry after) (inSheet : after.sheet.card pid = some now) :
    (∃ program root main, entry = .launch program root ∧ program.pid = pid ∧
      now = ProcessTable.launchedCard ledger.sheet program.pid program.parentPid root main) ∨
    ∃ card, ledger.sheet.card pid = some card ∧ Amends pid card entry now := by
  have put : ∀ {changedPid changed card}, ledger.sheet.card changedPid = some card →
      Amends changedPid card entry changed →
      (if pid = changedPid then some changed else ledger.sheet.card pid) = some now →
      ∃ card, ledger.sheet.card pid = some card ∧ Amends pid card entry now := by
    intro changedPid changed card found amends isNow
    split_ifs at isNow with same
    · cases isNow
      exact ⟨card, same ▸ found, same ▸ amends⟩
    · exact ⟨now, isNow, .untouched⟩
  cases posts with
  | @launch program _ root main =>
    simp only [Sheet.setCard_card] at inSheet
    split_ifs at inSheet with same
    · cases inSheet
      exact .inl ⟨program, root, main, rfl, same.symm, rfl⟩
    · exact .inr ⟨now, inSheet, .untouched⟩
  | draw | drop | own => exact .inr ⟨now, inSheet, .untouched⟩
  | finish found lives released =>
    rw [congrArg Sheet.card released.rest] at inSheet
    exact .inr (put found (.finish lives) inSheet)
  | giveUp found => exact .inr (put found .giveUp inSheet)
  | forget forgets =>
    rcases forgets.kept pid with same | ⟨gone, -⟩
    · exact .inr ⟨now, same.symm.trans inSheet, .untouched⟩
    · cases gone.symm.trans inSheet
  | regroup _ found => exact .inr (put found .regroup inSheet)
  | lead found => exact .inr (put found .lead inSheet)
  | credit _ found => exact .inr (put found .credit inSheet)
  | dispose _ found => exact .inr (put found .dispose inSheet)
  | mask blocked found lives => exact .inr (put found (.mask blocked lives) inSheet)
  | pend found lives => exact .inr (put found (.pend lives) inSheet)
  | enter _ found lives idle => exact .inr (put found (.enter lives idle) inSheet)
  | leave found lives => exact .inr (put found (.leave lives) inSheet)

theorem Posts.queued_of_launch (posts : Posts ledger (.launch program root) after) :
    program ∈ ledger.queue := by
  cases posts with
  | launch _ queued => exact queued ▸ List.mem_cons_self

theorem Posts.ended_of_finish (posts : Posts ledger (.finish pid) after)
    (inSheet : after.sheet.card pid = some now) :
    now.ended = true := by
  cases posts with
  | finish _ _ released =>
    rw [congrArg Sheet.card released.rest] at inSheet
    simp only [Sheet.setCard_card] at inSheet
    cases inSheet
    rfl

theorem Posts.card_of_enter (posts : Posts ledger (.enter pid tid original) after)
    (inSheet : after.sheet.card pid = some now) :
    ∃ card, ledger.sheet.card pid = some card ∧ card.handlers tid = none ∧
      now = card.setHandler tid (some original) := by
  cases posts with
  | enter _ found _ idle =>
    simp only [Ledger.setCard_sheet, Sheet.setCard_card] at inSheet
    cases inSheet
    exact ⟨_, found, idle, rfl⟩

/-- The identifier of a process that has been started does not return. -/
structure Ledger.Past (pid : Pid) (ledger : Ledger) : Prop where
  drawn : pid.toNat < ledger.sheet.bound
  unqueued : program ∈ ledger.queue → program.pid ≠ pid

namespace Ledger

variable {ledger after : Ledger}

theorem Filed.past (filed : ledger.Filed) (inSheet : ledger.sheet.card pid = some card) :
    ledger.Past pid := by
  refine ⟨filed.drawn inSheet, ?_⟩
  rintro program listed rfl
  have absent := (filed.queued listed).1
  rw [inSheet] at absent
  cases absent

theorem Past.preserved (past : ledger.Past pid) (posts : Posts ledger entry after) :
    after.Past pid := by
  cases posts with
  | launch _ queued | drop queued =>
    exact ⟨past.drawn, fun listed => past.unqueued (queued ▸ List.mem_cons_of_mem _ listed)⟩
  | draw =>
    refine ⟨Nat.lt_succ_of_lt past.drawn, fun listed => ?_⟩
    rcases List.mem_append.mp listed with old | new
    · exact past.unqueued old
    · obtain rfl := List.mem_singleton.mp new
      rintro rfl
      have earlier := past.drawn
      omega
  | finish _ _ released =>
    have bound := (congrArg Sheet.bound released.rest).trans rfl
    exact ⟨bound ▸ past.drawn, past.unqueued⟩
  | forget forgets =>
    have bound := (congrArg Sheet.bound forgets.rest).trans rfl
    exact ⟨bound ▸ past.drawn, past.unqueued⟩
  | giveUp | regroup | lead | credit | dispose | mask | pend | enter | leave | own =>
    exact ⟨past.drawn, past.unqueued⟩

/-- A card of a process from the past comes from an older one. -/
theorem Past.card
    (past : ledger.Past pid)
    (posts : Posts ledger entry after)
    (inSheet : after.sheet.card pid = some now) :
    ∃ card, ledger.sheet.card pid = some card ∧ Amends pid card entry now := by
  obtain ⟨program, root, main, rfl, rfl, -⟩ | older := posts.card inSheet
  · exact absurd rfl (past.unqueued posts.queued_of_launch)
  · exact older

end Ledger

end Vantara
