import Xv6502.Kernel.Waiting

/-!
# Killing

`sys_kill` only marks its victim, and the mark is looked at when the victim enters the kernel and
when it leaves it. That is enough: a process that is marked is in the kernel, so it meets the
test of `kernel_epilogue` before its next instruction in user mode. The PCB that `sys_fork`
copies carries no mark, since nothing can happen between the test of the prologue and the copy.
-/

namespace Xv6502.Kernel

open Xv6502.Emulator Xv6502.Lib

/-- The victim that a notice reports. -/
def Notice.killedPid : Notice → Option Word
  | .killed pid => some pid
  | _ => none

namespace Table

variable {s t : Table}

/-! ## §1 Marks -/

/-- The processes that are marked are those that `sys_kill` has named. -/
structure Marks (s : Table) : Prop where
  spared : ∀ pid ∈ s.log.filterMap Notice.killedPid, pid ≠ 1
  marked : ∀ pid ∈ s.log.filterMap Notice.killedPid, ∀ p, (s.procs p).state ≠ .unused →
    (s.procs p).pid = pid → (s.procs p).killed ≠ 0
  named : ∀ p, (s.procs p).state ≠ .unused → (s.procs p).killed ≠ 0 →
    (s.procs p).pid ∈ s.log.filterMap Notice.killedPid

/-- A move that marks nobody and builds no process. -/
structure Unmarked (s t : Table) : Prop where
  nextPid : t.nextPid = s.nextPid
  killed : ∀ p, (t.procs p).killed = (s.procs p).killed
  log : t.log.filterMap Notice.killedPid = s.log.filterMap Notice.killedPid

theorem goto_killed (s : Table) (point : Place) (p : Slot) :
    ((s.goto point).procs p).killed = (s.procs p).killed := by
  rw [goto, setSelf, proj_setProc _ _ _ _ (·.killed) rfl]

theorem setProc_goto_killed (s : Table) (i p : Slot) (f : Proc → Proc) (point : Place)
    (hf : ∀ r : Proc, (f r).killed = r.killed) :
    (((s.setProc i f).goto point).procs p).killed = (s.procs p).killed := by
  rw [goto_killed, proj_setProc _ _ _ _ (·.killed) (hf _)]

theorem Calm.marks (hCalm : Calm s t) :
    Unmarked s t ∨
      (∃ child trap, s.running = true ∧ s.self.point = .trapped trap ∧
        (s.procs child).state = .unused ∧ s.nextPid ≠ 0 ∧ t = s.create child) ∨
      ∃ i, s.running = true ∧ s.self.point = .returning 0 ∧ (s.procs i).state ≠ .unused ∧
        (1 : Word) < (s.procs i).pid ∧ t = s.mark i := by
  -- the pending mark is written in `sys_kill` alone; the others keep it, or end the process that
  -- has it
  cases hCalm with
  | wakeup channel =>
    exact .inl ⟨rfl, fun p => (wakeup_released s channel s.current p).killed, rfl⟩
  | tick hTick =>
    obtain ⟨-, ⟨-, rfl⟩ | ⟨-, rfl⟩⟩ := timerInterrupt_cases hTick
    · refine .inl ⟨rfl, fun p => ?_, rfl⟩
      exact (wakeup_released { s with systicks := s.systicks + 1 } .systicks s.current p).killed
    · exact .inl ⟨rfl, fun p => rfl, rfl⟩
  | act r running _ hActs =>
    refine .inl ⟨rfl, fun p => ?_, rfl⟩
    rw [procs_become]
    split
    · next hEq => rw [hEq, hActs.killed, self]
    · rfl
  | arm total _ => exact .inl ⟨rfl, fun p => rfl, rfl⟩
  | slept start ticks total _ _ => exact .inl ⟨rfl, fun p => rfl, rfl⟩
  | mount trap _ _ _ => exact .inl ⟨rfl, goto_killed s _, rfl⟩
  | exit cause _ _ hExit =>
    have hExits := exit_exits hExit
    refine .inl ⟨?_, fun p => ?_, ?_⟩
    · rw [hExits.rest]
    · by_cases hp : p = s.current
      · rw [hp, hExits.ended.killed, self]
      · exact (hExits.released p hp).killed
    · rw [hExits.rest]
      rfl
  | create child trap hRun hPoint hState hPid =>
    exact .inr (.inl ⟨child, trap, hRun, hPoint, hState, hPid, rfl⟩)
  | page child pid segment k page _ _ =>
    exact .inl ⟨rfl, fun p => proj_setProc _ _ _ _ (·.killed) rfl, rfl⟩
  | publish child pid segment _ _ =>
    exact .inl ⟨rfl, fun p => setProc_goto_killed _ _ _ _ _ fun _ => rfl, rfl⟩
  | mark i hRun hPoint hUsed _ hPid => exact .inr (.inr ⟨i, hRun, hPoint, hUsed, hPid, rfl⟩)

/-- A move marks nobody, or builds a child, or marks a victim. -/
theorem Move.marks (hMove : Move s t) :
    Unmarked s t ∨
      (∃ child trap, s.running = true ∧ s.self.point = .trapped trap ∧
        (s.procs child).state = .unused ∧ s.nextPid ≠ 0 ∧ t = s.create child) ∨
      ∃ i, s.running = true ∧ s.self.point = .returning 0 ∧ (s.procs i).state ≠ .unused ∧
        (1 : Word) < (s.procs i).pid ∧ t = s.mark i := by
  cases hMove with
  | calm hCalm => exact hCalm.marks
  | dispatch p _ _ =>
    refine .inl ⟨rfl, fun q => ?_, rfl⟩
    rw [procs_dispatch]
    split
    · next hEq => rw [hEq]
    · rfl
  | abandon child pid segment _ _ =>
    exact .inl ⟨rfl, fun p => setProc_goto_killed _ _ _ _ _ fun _ => rfl, rfl⟩
  | reap i _ _ _ =>
    exact .inl ⟨rfl, fun p => setProc_goto_killed _ _ _ _ _ fun _ => rfl, rfl⟩

/-- A process that exists after a move without a birth has existed before. -/
theorem Move.used_before (hLife : Life s) (hMove : Move s t) (hNext : t.nextPid = s.nextPid)
    {p : Slot} (hUsed : (t.procs p).state ≠ .unused) :
    (s.procs p).state ≠ .unused ∧ (t.procs p).pid = (s.procs p).pid := by
  obtain hSteady | ⟨child, -, -, -, rfl⟩ | ⟨cause, -, hRun, hExits⟩ | ⟨i, -, hFrees⟩ :=
    hMove.cases hLife
  · exact ⟨fun hUnused => hUsed ((hSteady.keeps p).unused.mpr hUnused), (hSteady.keeps p).pid⟩
  · have hMore : s.nextPid + 1 = s.nextPid := hNext
    simp at hMore
  · by_cases hp : p = s.current
    · subst hp
      refine ⟨?_, hExits.ended.pid⟩
      rw [← self, hLife.turn hRun]
      simp
    · have hState := (hExits.released p hp).state
      exact ⟨by grind, (hExits.released p hp).pid⟩
  · have hNe : p ≠ i := by
      rintro rfl
      exact hUsed hFrees.state
    have hKeeps := hFrees.keeps p hNe
    exact ⟨fun hUnused => hUsed (hKeeps.unused.mpr hUnused), hKeeps.pid⟩

/-! ## §2 Places that a marked process does not reach -/

/-- A process that has passed the test of the prologue or the epilogue is not marked. -/
structure Entries (s : Table) : Prop where
  user : ∀ p, (s.procs p).point = .user → (s.procs p).doomed = false
  trapped : ∀ p trap, (s.procs p).point = .trapped trap →
    (s.procs p).doomed = false ∧ s.mounted = true
  mounting : ∀ p trap, (s.procs p).point = .mounting trap → p = initProcess ∧ s.mounted = true
  unmounted : s.mounted = false → ∀ p, p ≠ initProcess → (s.procs p).state = .unused

/-- A place without a promise. -/
def Plain (point : Place) : Prop :=
  point ≠ .user ∧ (∀ trap, point ≠ .trapped trap) ∧ ∀ trap, point ≠ .mounting trap

theorem Entries.mono (h : Entries s) (hMounted : t.mounted = s.mounted)
    (hProc : ∀ p, (t.procs p).point = (s.procs p).point ∧
        (t.procs p).doomed = (s.procs p).doomed ∨ Plain (t.procs p).point)
    (hUsed : ∀ p, (t.procs p).state ≠ .unused → (s.procs p).state ≠ .unused) : Entries t := by
  -- each part is about where a process is, and a process that is nowhere new was fine before
  refine ⟨?_, ?_, ?_, ?_⟩
  · intro p hPoint
    rcases hProc p with ⟨hSame, hDoomed⟩ | hPlain
    · rw [hDoomed]
      exact h.user p (hSame ▸ hPoint)
    · exact absurd hPoint hPlain.1
  · intro p trap hPoint
    rcases hProc p with ⟨hSame, hDoomed⟩ | hPlain
    · rw [hDoomed, hMounted]
      exact h.trapped p trap (hSame ▸ hPoint)
    · exact absurd hPoint (hPlain.2.1 trap)
  · intro p trap hPoint
    rcases hProc p with ⟨hSame, -⟩ | hPlain
    · rw [hMounted]
      exact h.mounting p trap (hSame ▸ hPoint)
    · exact absurd hPoint (hPlain.2.2 trap)
  · intro hFirst p hNe
    rw [hMounted] at hFirst
    by_contra hState
    exact hUsed p hState (h.unmounted hFirst p hNe)

theorem doomed_congr {p r : Proc} (hKilled : r.killed = p.killed) (hPid : r.pid = p.pid) :
    r.doomed = p.doomed := by
  rw [Proc.doomed, Proc.doomed, hKilled, hPid]

/-! ## §3 The moves -/

theorem killedPid_mem {notice : Notice} {pid : Word} (h : notice.killedPid = some pid) :
    pid ∈ notice.pids := by
  cases notice with
  | killed pid' =>
    obtain rfl := Option.some.inj h
    simp [Notice.pids]
  | _ => cases h

/-- A process that is not doomed carries no mark. -/
theorem Marks.unmarked (h : Marks s) {p : Slot} (hUsed : (s.procs p).state ≠ .unused)
    (hSpared : (s.procs p).doomed = false) : (s.procs p).killed = 0 := by
  by_contra hMark
  have hFirst : (s.procs p).pid = 1 := by
    by_contra hNe
    simp only [Proc.doomed, Bool.and_eq_false_iff, bne_eq_false_iff_eq] at hSpared
    exact hSpared.elim hMark hNe
  exact h.spared _ (h.named p hUsed hMark) hFirst

theorem Marks.move (hLife : Life s) (hPids : Pids s) (hEntries : Entries s) (h : Marks s)
    (hMove : Move s t) : Marks t := by
  obtain hUnmarked | ⟨child, trap, hRun, hPoint, hState, hPid, rfl⟩ |
    ⟨i, hRun, hPoint, hUsed, hPid, rfl⟩ := hMove.marks
  · have hBefore := fun p => hMove.used_before hLife hUnmarked.nextPid (p := p)
    refine ⟨?_, ?_, ?_⟩
    · rw [hUnmarked.log]
      exact h.spared
    · rw [hUnmarked.log]
      intro pid hMem p hp hPid
      obtain ⟨hOld, hSame⟩ := hBefore p hp
      rw [hUnmarked.killed p]
      exact h.marked pid hMem p hOld (hSame ▸ hPid)
    · rw [hUnmarked.log]
      intro p hp hMark
      obtain ⟨hOld, hSame⟩ := hBefore p hp
      rw [hSame]
      exact h.named p hOld (hUnmarked.killed p ▸ hMark)
  · have hNow := procs_create s child
    have hSelf : (s.procs s.current).state ≠ .unused := by
      rw [← self, hLife.turn hRun]
      simp
    -- the parent has passed the test of the prologue
    have hClean : s.self.killed = 0 := h.unmarked hSelf (hEntries.trapped s.current trap hPoint).1
    refine ⟨h.spared, ?_, ?_⟩
    · intro pid hMem p hp hIs
      have hMem : pid ∈ s.log.filterMap Notice.killedPid := hMem
      rw [hNow] at hp hIs ⊢
      split at hp
      · next hEq =>
        rw [if_pos hEq] at hIs
        exact absurd hIs (nextPid_ne hPids hPid (fun _ _ => killedPid_mem) hMem)
      · next hNe =>
        rw [if_neg hNe] at hIs ⊢
        exact h.marked pid hMem p hp hIs
    · intro p hp hMark
      rw [hNow] at hp hMark ⊢
      split at hp
      · next hEq =>
        rw [if_pos hEq] at hMark
        exact absurd hClean hMark
      · next hNe =>
        rw [if_neg hNe] at hMark ⊢
        exact h.named p hp hMark
  · have hWoken := (Quiet.mark s i).woken
    have hBefore : ∀ p, ((s.mark i).procs p).state ≠ .unused → (s.procs p).state ≠ .unused := by
      intro p hp
      have hState := (hWoken p).state
      grind
    have hKilled : ∀ p, ((s.mark i).procs p).killed =
        if p = i then s.self.pid else (s.procs p).killed := by
      intro p
      simp only [mark, note, setProc, Function.update_apply]
      split
      · rfl
      · rfl
    have hKiller : s.self.pid ≠ 0 := by
      refine hPids.positive s.current ?_
      rw [← self, hLife.turn hRun]
      simp
    have hList : (s.mark i).log.filterMap Notice.killedPid =
        (s.procs i).pid :: s.log.filterMap Notice.killedPid := rfl
    refine ⟨?_, ?_, ?_⟩
    · intro pid hMem
      rw [hList] at hMem
      rcases List.mem_cons.mp hMem with rfl | hOld
      · intro hOne
        rw [hOne] at hPid
        exact absurd hPid (by decide)
      · exact h.spared pid hOld
    · intro pid hMem p hp hIs
      rw [hList] at hMem
      rw [(hWoken p).pid] at hIs
      rw [hKilled]
      split
      · exact hKiller
      · next hNe =>
        rcases List.mem_cons.mp hMem with rfl | hOld
        · exact absurd (hPids.distinct p i (hBefore p hp) hUsed hIs) hNe
        · exact h.marked pid hOld p (hBefore p hp) hIs
    · intro p hp hMark
      rw [hList, (hWoken p).pid]
      rw [hKilled] at hMark
      split at hMark
      · next hEq => exact hEq ▸ List.mem_cons_self
      · exact List.mem_cons_of_mem _ (h.named p (hBefore p hp) hMark)

/-- The running process moves to a plain place, and another process stays where it stands. -/
theorem setProc_goto_point (s : Table) {i : Slot} {f : Proc → Proc} {value : Word}
    (hf : ∀ r : Proc, (f r).point = r.point ∧ (f r).killed = r.killed ∧ (f r).pid = r.pid)
    (p : Slot) :
    (((s.setProc i f).goto (.returning value)).procs p).point = (s.procs p).point ∧
        (((s.setProc i f).goto (.returning value)).procs p).doomed = (s.procs p).doomed ∨
      Plain (((s.setProc i f).goto (.returning value)).procs p).point := by
  rw [goto_eq_become, procs_become]
  split
  · exact .inr ⟨nofun, nofun, nofun⟩
  · refine .inl ⟨?_, doomed_congr ?_ ?_⟩
    · exact proj_setProc _ _ _ _ (·.point) (hf _).1
    · exact proj_setProc _ _ _ _ (·.killed) (hf _).2.1
    · exact proj_setProc _ _ _ _ (·.pid) (hf _).2.2

/-- A quiet move without a mark. -/
theorem Entries.quiet (h : Entries s) (hQuiet : Quiet s t)
    (hKilled : ∀ p, (t.procs p).killed = (s.procs p).killed) : Entries t := by
  have hWoken := hQuiet.woken
  refine h.mono hQuiet.mounted ?_ ?_
  · intro p
    exact .inl ⟨(hWoken p).point, doomed_congr (hKilled p) (hWoken p).pid⟩
  · intro p hp
    have hState := (hWoken p).state
    grind

theorem Entries.act (h : Entries s) (hLife : Life s) (hPids : Pids s) {r : Proc} {running : Bool}
    (hRun : s.running = true) (hActs : Acts s r running) : Entries (s.become r running) := by
  have hNow := procs_become s r running
  have hDoomed : r.doomed = s.self.doomed := doomed_congr hActs.killed hActs.pid
  -- where the running process may go from where it is
  have hEnters := hActs.enters
  have hTurn := hLife.turn hRun
  refine ⟨?_, ?_, ?_, ?_⟩
  · intro p hPoint
    rw [hNow] at hPoint ⊢
    split at hPoint
    · next hEq =>
      rw [if_pos hEq, hDoomed]
      rw [hPoint] at hEnters
      exact hEnters.2.elim (h.user s.current) id
    · next hNe =>
      rw [if_neg hNe]
      exact h.user p hPoint
  · intro p trap hPoint
    rw [hNow] at hPoint ⊢
    split at hPoint
    · next hEq =>
      rw [if_pos hEq, hDoomed]
      rw [hPoint] at hEnters
      rcases hEnters.2 with hMounting | hTrapped | hSpared
      · -- the first trap of all is one of "init", which cannot be killed
        obtain ⟨hInit, hMounted⟩ := h.mounting s.current trap hMounting
        refine ⟨?_, hMounted⟩
        simp [Proc.doomed, self, hInit, hPids.first]
      · exact h.trapped s.current trap hTrapped
      · exact hSpared
    · next hNe =>
      rw [if_neg hNe]
      exact h.trapped p trap hPoint
  · intro p trap hPoint
    rw [hNow] at hPoint
    split at hPoint
    · next hEq =>
      rw [hPoint] at hEnters
      exact hEq ▸ h.mounting s.current trap hEnters
    · exact h.mounting p trap hPoint
  · intro hFirst p hNe
    rw [hNow]
    have hOld := h.unmounted hFirst p hNe
    split
    · next hEq =>
      rw [hEq, ← self, hTurn] at hOld
      cases hOld
    · exact hOld

theorem Entries.mount (h : Entries s) (hLife : Life s) (hRun : s.running = true) (trap : Trap)
    (hFirst : s.mounted = false) : Entries { s.goto (.mounting trap) with mounted := true } := by
  have hNow : ∀ p, ({ s.goto (.mounting trap) with mounted := true } : Table).procs p =
      if p = s.current then { s.self with point := .mounting trap } else s.procs p :=
    procs_become s _ s.running
  -- before the first trap there is only "init"
  have hInit : s.current = initProcess := by
    by_contra hNe
    have hUnused := h.unmounted hFirst s.current hNe
    rw [← self, hLife.turn hRun] at hUnused
    cases hUnused
  refine ⟨?_, ?_, ?_, by rintro ⟨⟩⟩
  · intro p hPoint
    rw [hNow] at hPoint ⊢
    split at hPoint
    · cases hPoint
    · next hNe =>
      rw [if_neg hNe]
      exact h.user p hPoint
  · intro p trap' hPoint
    rw [hNow] at hPoint ⊢
    split at hPoint
    · cases hPoint
    · next hNe =>
      rw [if_neg hNe]
      exact ⟨(h.trapped p trap' hPoint).1, rfl⟩
  · intro p trap' hPoint
    rw [hNow] at hPoint
    split at hPoint
    · next hEq => exact ⟨hEq.trans hInit, rfl⟩
    · exact ⟨(h.mounting p trap' hPoint).1, rfl⟩

theorem Entries.create (h : Entries s) {child : Slot} {trap : Trap}
    (hPoint : s.self.point = .trapped trap) : Entries (s.create child) := by
  have hNow := procs_create s child
  have hMounted := (h.trapped s.current trap hPoint).2
  -- the child is inside the fork of its parent, and at no place these parts are about
  refine ⟨?_, ?_, ?_, ?_⟩
  · intro p hUser
    rw [hNow] at hUser ⊢
    split at hUser
    · cases hUser
    · next hNe =>
      rw [if_neg hNe]
      exact h.user p hUser
  · intro p trap' hTrapped
    rw [hNow] at hTrapped ⊢
    split at hTrapped
    · cases hTrapped
    · next hNe =>
      rw [if_neg hNe]
      exact h.trapped p trap' hTrapped
  · intro p trap' hMounting
    rw [hNow] at hMounting
    split at hMounting
    · cases hMounting
    · exact h.mounting p trap' hMounting
  · intro hFirst
    have hFirst : s.mounted = false := hFirst
    rw [hMounted] at hFirst
    cases hFirst

/-- The victim of `sys_kill` stands at a plain place: it is not running, or it is the caller,
    which is about to return. -/
theorem Entries.victim (h : Entries s) (hLife : Life s) (hPids : Pids s) {i : Slot}
    (hPoint : s.self.point = .returning 0) (hPid : (1 : Word) < (s.procs i).pid) :
    Plain (s.procs i).point := by
  have hNotRunning : (s.procs i).state = .running → (s.procs i).point = .returning 0 := by
    intro hState
    obtain rfl := (hLife.only i hState).2
    exact hPoint
  refine ⟨?_, ?_, ?_⟩
  · intro hUser
    have hReturning := hNotRunning ((hLife.fits i).user hUser)
    rw [hUser] at hReturning
    cases hReturning
  · intro trap hTrapped
    have hReturning := hNotRunning ((hLife.fits i).trapped trap hTrapped)
    rw [hTrapped] at hReturning
    cases hReturning
  · intro trap hMounting
    rw [(h.mounting i trap hMounting).1, hPids.first] at hPid
    exact absurd hPid (by decide)

theorem Entries.calm (hLife : Life s) (hPids : Pids s) (h : Entries s) (hCalm : Calm s t) :
    Entries t := by
  cases hCalm with
  | wakeup channel =>
    exact h.quiet (Quiet.wakeup s channel) fun p => (wakeup_released s channel s.current p).killed
  | tick hTick =>
    refine h.quiet (Quiet.tick hTick) ?_
    obtain ⟨-, ⟨-, rfl⟩ | ⟨-, rfl⟩⟩ := timerInterrupt_cases hTick
    · intro p
      exact (wakeup_released { s with systicks := s.systicks + 1 } .systicks s.current p).killed
    · exact fun p => rfl
  | act r running hRun hActs => exact h.act hLife hPids hRun hActs
  | arm total _ => exact ⟨h.user, h.trapped, h.mounting, h.unmounted⟩
  | slept start ticks total _ _ => exact ⟨h.user, h.trapped, h.mounting, h.unmounted⟩
  | mount trap hRun _ hFirst => exact h.mount hLife hRun trap hFirst
  -- a process that ends is at no place any more
  | exit cause hRun hCode hExit =>
    have hExits := exit_exits hExit
    refine h.mono (by rw [hExits.rest]) ?_ ?_
    · intro p
      by_cases hp : p = s.current
      · right
        rw [hp, hExits.ended.point]
        exact ⟨nofun, nofun, nofun⟩
      · have hReleased := hExits.released p hp
        exact .inl ⟨hReleased.point, doomed_congr hReleased.killed hReleased.pid⟩
    · intro p hUsed
      have hNext : t.nextPid = s.nextPid := by rw [hExits.rest]
      exact ((Move.calm (.exit cause hRun hCode hExit)).used_before hLife hNext hUsed).1
  | create child trap _ hPoint _ _ => exact h.create hPoint
  | page child pid segment k page _ _ =>
    exact h.quiet (Quiet.setProc ⟨rfl, rfl, rfl, rfl, rfl, .inl rfl⟩)
      fun p => proj_setProc _ _ _ _ (·.killed) rfl
  | publish child pid segment hRun hPoint =>
    refine h.mono rfl (setProc_goto_point s fun r => ⟨rfl, rfl, rfl⟩) fun p hUsed => ?_
    exact ((Move.calm (.publish child pid segment hRun hPoint)).used_before hLife rfl hUsed).1
  | mark i hRun hPoint hUsed hAlive hPid =>
    refine h.mono rfl ?_ fun p hp => ?_
    · intro p
      -- the victim may be marked only at a place without a promise
      have hWoken := (Quiet.mark s i).woken p
      by_cases hp : p = i
      · right
        rw [hWoken.point, hp]
        exact h.victim hLife hPids hPoint hPid
      · have hSame : (s.mark i).procs p = s.procs p := Function.update_of_ne hp _ _
        exact .inl ⟨by rw [hSame], by rw [hSame]⟩
    · exact ((Move.calm (.mark i hRun hPoint hUsed hAlive hPid)).used_before hLife rfl hp).1

theorem Entries.move (hLife : Life s) (hPids : Pids s) (h : Entries s) (hMove : Move s t) :
    Entries t := by
  cases hMove with
  | calm hCalm => exact h.calm hLife hPids hCalm
  | dispatch p hIdle hState =>
    refine h.mono rfl ?_ fun q hUsed => ?_
    · intro q
      rw [procs_dispatch]
      split
      · next hEq => exact hEq ▸ .inl ⟨rfl, rfl⟩
      · exact .inl ⟨rfl, rfl⟩
    · exact ((Move.dispatch p hIdle hState).used_before hLife rfl hUsed).1
  | abandon child pid segment hRun hPoint =>
    refine h.mono rfl (setProc_goto_point s fun r => ⟨rfl, rfl, rfl⟩) fun p hUsed => ?_
    exact ((Move.abandon child pid segment hRun hPoint).used_before hLife rfl hUsed).1
  | reap i hRun hState hParent =>
    refine h.mono rfl (setProc_goto_point s fun r => ⟨rfl, rfl, rfl⟩) fun p hUsed => ?_
    exact ((Move.reap i hRun hState hParent).used_before hLife rfl hUsed).1

/-! ## §4 Every run -/

/-- What the run knows about kills. -/
structure Doom (s : Table) : Prop where
  pids : Pids s
  entries : Entries s
  marks : Marks s

theorem Doom.move (hLife : Life s) (h : Doom s) (hMove : Move s t) : Doom t :=
  ⟨h.pids.move hLife hMove, h.entries.move hLife h.pids hMove,
    h.marks.move hLife h.pids h.entries hMove⟩

theorem Doom.boot (code : Page) (top : Word) : Doom (boot code top) := by
  have hBoot : ∀ p, (Table.boot code top).procs p = initProc code top ∨
      (Table.boot code top).procs p = emptySlot := by
    intro p
    by_cases h : p = initProcess
    · exact .inl (if_pos h)
    · exact .inr (if_neg h)
  refine ⟨Pids.boot code top, ⟨?_, ?_, ?_, ?_⟩, nofun, nofun, ?_⟩
  · intro p hPoint
    rcases hBoot p with h | h <;> rw [h] at hPoint <;> cases hPoint
  · intro p trap hPoint
    rcases hBoot p with h | h <;> rw [h] at hPoint <;> cases hPoint
  · intro p trap hPoint
    rcases hBoot p with h | h <;> rw [h] at hPoint <;> cases hPoint
  · intro _ p hNe
    simp [Table.boot, hNe, emptySlot]
  · intro p _ hMark
    rcases hBoot p with h | h <;> rw [h] at hMark <;> exact absurd rfl hMark

/-- `sys_kill` returns 0 for a victim. -/
structure KillReturns (s : Table) (victim : Word) (t : Table) : Prop where
  running : s.running = true
  atKill : s.atSyscall .kill
  victim : s.self.ax = victim
  step : Step s .proceed t
  value : (t.procs s.current).point = .returning 0

theorem KillReturns.logged {victim : Word} (h : KillReturns s victim t) :
    .killed victim ∈ t.log := by
  obtain ⟨hRun, hKill, rfl, hStep, hValue⟩ := h
  obtain ⟨number, hPoint, hCall⟩ := atSyscall_point hKill
  have hProceed : s.proceed = some t := (Option.ite_none_right_eq_some.mp hStep).2
  rw [proceed, hPoint] at hProceed
  have hBrk : s.kernelBrk number = some t := hProceed
  rw [kernelBrk, hCall] at hBrk
  obtain rfl := Option.some.inj hBrk
  -- -1 is not the value of a kill that has found its victim
  have hMinus : ((s.goto (.returning (-1))).procs s.current).point ≠ .returning 0 := by
    rw [goto_eq_become, procs_become, if_pos rfl]
    simp
  rw [kill] at hValue ⊢
  split at hValue
  · exact absurd hValue hMinus
  · next hPid =>
    rw [if_neg hPid]
    cases hFind : find (s.isVictim s.self.ax) with
    | none =>
      rw [hFind] at hValue
      exact absurd hValue hMinus
    | some i =>
      have hTest := find_some hFind
      simp only [isVictim, Bool.and_eq_true, beq_iff_eq] at hTest
      rw [← hTest.1.2]
      exact List.mem_cons_self

/-- The places from which `kernel_epilogue` is called. -/
def Leaving : Place → Prop
  | .fresh | .irqYield | .trapped .irq | .returning _ => True
  | _ => False

theorem epilogue_doomed {f : Proc → Proc} (hf : (f s.self).doomed = true)
    (h : (s.setSelf f).epilogue = some t) :
    (t.procs s.current).state = .zombie ∧ (t.procs s.current).exitCode = 1 := by
  rw [epilogue, self_setSelf, if_pos hf] at h
  have hExits := exit_exits h
  have hEnded := hExits.ended
  refine ⟨hEnded.state, hEnded.exitCode.trans ?_⟩
  rw [self_setSelf]
  exact setA_code _ _

/-- A marked process that is about to leave the kernel ends instead. -/
theorem proceed_doomed (hDoomed : s.self.doomed = true)
    (hLeaving : Leaving s.self.point) (hStep : Step s .proceed t) :
    (t.procs s.current).state = .zombie ∧ (t.procs s.current).exitCode = 1 := by
  have hProceed : s.proceed = some t := (Option.ite_none_right_eq_some.mp hStep).2
  have hSame : s.setSelf id = s := by
    simp [setSelf, setProc]
  rw [proceed] at hProceed
  -- the places from which the kernel goes back to the program, each through `epilogue`
  split at hProceed
  · exact epilogue_doomed (f := id) hDoomed (hSame.symm ▸ hProceed)
  · exact epilogue_doomed (f := id) hDoomed (hSame.symm ▸ hProceed)
  · exact epilogue_doomed (f := id) hDoomed (hSame.symm ▸ hProceed)
  · exact epilogue_doomed hDoomed hProceed
  · next hPoint =>
    rw [hPoint] at hLeaving
    exact hLeaving.elim
  · next hPoint =>
    rw [hPoint] at hLeaving
    exact hLeaving.elim
  · next hPoint =>
    rw [hPoint] at hLeaving
    exact hLeaving.elim
  · next hPoint =>
    rw [hPoint] at hLeaving
    exact hLeaving.elim
  · cases hProceed

theorem Marks.doomed (h : Marks s) (hUsed : s.self.state ≠ .unused)
    (hMem : .killed s.self.pid ∈ s.log) : s.self.doomed = true := by
  have hList : s.self.pid ∈ s.log.filterMap Notice.killedPid :=
    List.mem_filterMap.mpr ⟨_, hMem, rfl⟩
  have hMark := h.marked _ hList s.current hUsed rfl
  have hFirst := h.spared _ hList
  rw [← self] at hMark
  simp only [Proc.doomed, Bool.and_eq_true, bne_iff_ne]
  exact ⟨hMark, hFirst⟩

/-- **A killed process never runs user code again**: every path back to user mode ends in
    `sys_exit`. And a mark is never inherited: whoever is marked has been named by `sys_kill`. -/
theorem killed_never_returns {code : Page} {top : Word} {es es' : List Event} {u : Table}
    {victim : Word} (hRun : Run Step (boot code top) es s) (hKill : KillReturns s victim t)
    (hLater : Run Step t es' u) :
    ¬ (u.inUser = true ∧ u.self.pid = victim) ∧
      (u.running = true → u.self.pid = victim → Leaving u.self.point → ∀ w, Step u .proceed w →
        (w.procs u.current).state = .zombie ∧ (w.procs u.current).exitCode = 1) ∧
      ∀ p, (u.procs p).state ≠ .unused → (u.procs p).killed ≠ 0 →
        .killed (u.procs p).pid ∈ u.log := by
  have hMove : ∀ s t, Life s → Doom s → Move s t → Doom t := fun _ _ hLife h => h.move hLife
  obtain ⟨hLifeT, hDoomT⟩ := invariant_of_moves hMove (hRun.append (.cons hKill.step (.nil _)))
    (Life.boot code top) (Doom.boot code top)
  obtain ⟨hLife, hDoom⟩ := invariant_of_moves hMove hLater hLifeT hDoomT
  -- the notice of the kill stays in the log
  have hLog : .killed victim ∈ u.log := by
    have hKeep : ∀ s t, Life s → .killed victim ∈ s.log → Move s t → .killed victim ∈ t.log :=
      fun _ _ hLife hMem hMove => hMove.log_mono hLife _ hMem
    exact (invariant_of_moves hKeep hLater hLifeT hKill.logged).2
  have hDoomed : u.running = true → u.self.pid = victim → u.self.doomed = true := by
    intro hRunning hPid
    refine hDoom.marks.doomed ?_ (hPid ▸ hLog)
    rw [hLife.turn hRunning]
    simp
  refine ⟨?_, ?_, ?_⟩
  · rintro ⟨hUser, hPid⟩
    simp only [inUser, Bool.and_eq_true, beq_iff_eq] at hUser
    have hSpared := hDoom.entries.user u.current hUser.2
    rw [← self, hDoomed hUser.1 hPid] at hSpared
    cases hSpared
  · intro hRunning hPid hLeaving w hStep
    exact proceed_doomed (hDoomed hRunning hPid) hLeaving hStep
  · intro p hUsed hMark
    obtain ⟨notice, hMem, hIs⟩ := List.mem_filterMap.mp (hDoom.marks.named p hUsed hMark)
    cases notice with
    | killed pid =>
      obtain rfl := Option.some.inj hIs
      exact hMem
    | _ => cases hIs

/-! ## §5 A kill -/

section Example

variable {code : Page} {top : Word} {index : Slot} {nextPid : Word} {log : List Notice}

/-- "init" kills its child before the child has run. -/
theorem pair_kill {pid : Word} {pages : Segment → Option Page} (hPid : ¬ pid ≤ 1) :
    Step (pair (parentAt code top .running pid .null (.trapped (.brk 0x4b)))
        (childAt top .new pid 0 0 pages .fresh) 0 true index nextPid true log) .proceed
      (pair (parentAt code top .running pid .null (.returning 0))
        { childAt top .new pid 0 0 pages .fresh with killed := 1 } 0 true index nextPid true
        (.killed pid :: log)) := by
  have hFind : find ((pair (parentAt code top .running pid .null (.trapped (.brk 0x4b)))
      (childAt top .new pid 0 0 pages .fresh) 0 true index nextPid true log).isVictim pid) =
        some 1 := by
    refine find_only ?_ ?_
    · simp [isVictim, childAt, parentAt, initProc, emptySlot]
    · intro q hq
      by_contra hOne
      by_cases hZero : q = 0
      · simp only [hZero, isVictim, pair_procs_zero, Bool.and_eq_true, beq_iff_eq] at hq
        rw [← hq.1.2] at hPid
        exact hPid (BitVec.le_refl _)
      · simp [isVictim, pair, hZero, hOne, emptySlot] at hq
  apply step_of_act rfl
  show some (kill _) = _
  rw [kill, pair_self_zero]
  rw [if_neg (show ¬ (parentAt code top .running pid .null (.trapped (.brk 0x4b))).ax ≤ 1 from hPid)]
  rw [show (parentAt code top .running pid .null (.trapped (.brk 0x4b))).ax = pid from rfl, hFind]
  simp only [mark, pair_setProc_one, pair_note, goto, pair_setSelf_zero]
  rfl

end Example

/-- The child of "init" is killed, and does not run. -/
theorem first_child_killed :
    ∃ es s t, Run Step (boot (fun _ => 0) 0x800) es s ∧ KillReturns s 2 t ∧
      ¬ (t.inUser = true ∧ t.self.pid = 2) := by
  let s := pair (parentAt (fun _ => 0) 0x800 .running 2 .null (.trapped (.brk 0x4b)))
    (childAt 0x800 .new 2 0 0 (childPages fun _ => 0) .fresh) 0 true 1 3 true [.forked 1 2]
  let t := pair (parentAt (fun _ => 0) 0x800 .running 2 .null (.returning 0))
    { childAt 0x800 .new 2 0 0 (childPages fun _ => 0) .fresh with killed := 1 } 0 true 1 3 true
    [.killed 2, .forked 1 2]
  have hFork : Run Step (boot (fun _ => 0) 0x800) (forkOnce ++ [.trap (.brk 0x4b) 2]) s :=
    (boot_forked _ _).append (.cons (pair_trap (.brk 0x4b) 2) (.nil _))
  have hKill : KillReturns s 2 t := by
    have hCall : s.atSyscall .kill := by
      show syscallsTable 0x4b = some .kill
      rfl
    exact ⟨rfl, hCall, rfl, pair_kill (by decide), rfl⟩
  exact ⟨_, s, t, hFork, hKill, (killed_never_returns hFork hKill (.nil _)).1⟩

end Table

end Xv6502.Kernel
