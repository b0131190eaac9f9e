import Xv6502.Kernel.ProcessMoves

/-!
# The End of a Process

What `sys_exit` leaves behind: the process is a zombie with its exit code, its children have
become children of "init", its parent is awake, and so is "init" if it has inherited a zombie.
-/

namespace Xv6502.Kernel

open Xv6502.Emulator Xv6502.Lib

namespace Table

variable {s t : Table} {me : Slot}

/-! ## §1 The loop over the children -/

/-- `sys_exit` of process `me` may wake another process up and give it to "init". -/
structure Released (me : Slot) (p r : Proc) : Prop where
  point : r.point = p.point
  pid : r.pid = p.pid
  channel : r.channel = p.channel
  exitCode : r.exitCode = p.exitCode
  killed : r.killed = p.killed
  state : r.state = p.state ∨ p.state = .sleeping ∧ r.state = .ready
  parent : r.parent = p.parent ∨ p.parent = some me ∧ r.parent = some initProcess

theorem Released.refl (me : Slot) (p : Proc) : Released me p p :=
  ⟨rfl, rfl, rfl, rfl, rfl, .inl rfl, .inl rfl⟩

theorem Released.trans {p q r : Proc} (h : Released me p q) (h' : Released me q r) :
    Released me p r where
  point := h'.point.trans h.point
  pid := h'.pid.trans h.pid
  channel := h'.channel.trans h.channel
  exitCode := h'.exitCode.trans h.exitCode
  killed := h'.killed.trans h.killed
  state := by
    have hFirst := h.state
    have hThen := h'.state
    grind
  parent := by
    have hFirst := h.parent
    have hThen := h'.parent
    grind

/-- A process that sleeps afterwards has slept before. -/
theorem Released.sleeping {p r : Proc} (h : Released me p r) (hState : r.state = .sleeping) :
    p.state = .sleeping := by
  have hBefore := h.state
  grind

theorem wakeup_released (s : Table) (channel : Channel) (me p : Slot) :
    Released me (s.procs p) ((s.wakeup channel).procs p) := by
  simp only [wakeup]
  split
  · next h => exact ⟨rfl, rfl, rfl, rfl, rfl, .inr ⟨h.1, rfl⟩, .inl rfl⟩
  · exact Released.refl _ _

/-- Nobody sleeps on the channel. -/
def Awake (s : Table) (channel : Channel) : Prop :=
  ∀ p, (s.procs p).state = .sleeping → (s.procs p).channel ≠ channel

theorem wakeup_awake (s : Table) (channel : Channel) : (s.wakeup channel).Awake channel := by
  intro p h
  simp only [wakeup] at h ⊢
  grind

theorem Awake.released {channel : Channel} (h : s.Awake channel)
    (hReleased : ∀ p, Released me (s.procs p) (t.procs p)) : t.Awake channel := by
  intro p hState
  rw [(hReleased p).channel]
  exact h p ((hReleased p).sleeping hState)

/-- A turn of the loop changes nothing but the records of the processes. -/
theorem adopt_eq (me : Slot) (s : Table) (i : Slot) :
    adopt me s i = { s with procs := (adopt me s i).procs } := by
  simp only [adopt]
  split
  · split
    · rfl
    · rfl
  · rfl

theorem adopt_released (me : Slot) (s : Table) (i p : Slot) :
    Released me (s.procs p) ((adopt me s i).procs p) := by
  simp only [adopt]
  split
  · next h =>
    have hGive : Released me (s.procs p)
        ((s.setProc i fun p => { p with parent := some initProcess }).procs p) := by
      rw [procs_setProc]
      split
      · next hEq =>
        obtain rfl := hEq
        exact ⟨rfl, rfl, rfl, rfl, rfl, .inl rfl, .inr ⟨h.2, rfl⟩⟩
      · exact Released.refl _ _
    split
    · exact hGive.trans (wakeup_released _ _ _ _)
    · exact hGive
  · exact Released.refl _ _

/-- The turn gives its own process to "init" and leaves the other parents alone. -/
theorem adopt_parent (me : Slot) (s : Table) (i p : Slot) :
    ((adopt me s i).procs p).parent =
      if p = i ∧ (s.procs p).state ≠ .unused ∧ (s.procs p).parent = some me then some initProcess
      else (s.procs p).parent := by
  simp only [adopt]
  split
  · have hGive : ((s.setProc i fun p => { p with parent := some initProcess }).procs p).parent =
        if p = i then some initProcess else (s.procs p).parent := by
      rw [procs_setProc]
      split
      · rfl
      · rfl
    split
    · rw [(wakeup_woken _ _ p).parent, hGive]
      grind
    · rw [hGive]
      grind
  · grind

/-- A turn that inherits a zombie wakes "init" up. -/
theorem adopt_awake {i : Slot} (hState : (s.procs i).state = .zombie)
    (hParent : (s.procs i).parent = some me) : (adopt me s i).Awake (.proc initProcess) := by
  have hChild : (s.procs i).state ≠ .unused ∧ (s.procs i).parent = some me := by
    simp [hState, hParent]
  have hZombie : ((s.setProc i fun p => { p with parent := some initProcess }).procs i).state =
      .zombie := by
    simp [procs_setProc, hState]
  simp only [adopt, if_pos hChild, if_pos hZombie]
  exact wakeup_awake _ _

section Loop

variable (me : Slot) (l : List Slot)

theorem foldl_adopt_eq (s : Table) :
    l.foldl (adopt me) s = { s with procs := (l.foldl (adopt me) s).procs } := by
  induction l generalizing s with
  | nil => rfl
  | cons i l ih =>
    rw [List.foldl_cons, ih, adopt_eq]

theorem foldl_adopt_released (s : Table) (p : Slot) :
    Released me (s.procs p) ((l.foldl (adopt me) s).procs p) := by
  induction l generalizing s with
  | nil => exact Released.refl _ _
  | cons i l ih =>
    rw [List.foldl_cons]
    exact (adopt_released me s i p).trans (ih _)

/-- Behind the loop no process it has visited is a child of `me`. -/
theorem foldl_adopt_parent (hMe : me ≠ initProcess) (s : Table) {p : Slot} (hMem : p ∈ l)
    (hUsed : (s.procs p).state ≠ .unused) : ((l.foldl (adopt me) s).procs p).parent ≠ some me := by
  induction l generalizing s with
  | nil => cases hMem
  | cons i l ih =>
    rw [List.foldl_cons]
    obtain rfl | hLater := List.mem_cons.mp hMem
    · have hHere := adopt_parent me s p p
      have hRest := (foldl_adopt_released me l (adopt me s p) p).parent
      grind
    · refine ih _ hLater ?_
      have hState := (adopt_released me s i p).state
      grind

/-- Behind the loop "init" is awake if a child of `me` was a zombie. -/
theorem foldl_adopt_awake (s : Table) {j : Slot} (hMem : j ∈ l)
    (hState : (s.procs j).state = .zombie) (hParent : (s.procs j).parent = some me) :
    (l.foldl (adopt me) s).Awake (.proc initProcess) := by
  induction l generalizing s with
  | nil => cases hMem
  | cons i l ih =>
    rw [List.foldl_cons]
    by_cases hHere : j = i
    · subst hHere
      exact (adopt_awake hState hParent).released (foldl_adopt_released me l _)
    · refine ih _ ((List.mem_cons.mp hMem).resolve_left hHere) ?_ ?_
      · have hSame := (adopt_released me s i j).state
        grind
      · rw [adopt_parent, if_neg (fun h => hHere h.1)]
        exact hParent

end Loop

/-! ## §2 The whole call -/

/-- The process has given its memory back and recorded its exit code. -/
def emptied (s : Table) : Table :=
  s.setSelf fun p => { p with pages := fun _ => none, exitCode := p.ax.setWidth 8 }

/-- The table before the loop: the process has become a zombie, and its parent is awake. -/
def ended (s : Table) : Table :=
  (s.emptied.wakeParent s.emptied.self.parent).suspend .zombie .exited

theorem exit_eq_some {cause : ExitCause} (h : s.exit cause = some t) :
    s.current ≠ initProcess ∧ ∃ l : List Slot, (∀ p, p ∈ l) ∧
      t = (l.foldl (adopt s.ended.current) s.ended).note (.exited s.ended.self.pid cause) := by
  rw [exit] at h
  split at h
  · cases h
  · next hInit =>
    exact ⟨hInit, List.finRange maxProcCount, List.mem_finRange, (Option.some.inj h).symm⟩

/-- A process without children leaves none to "init". -/
theorem exit_childless (cause : ExitCause) (hInit : s.current ≠ initProcess)
    (h : ∀ i, (s.ended.procs i).parent ≠ some s.ended.current) :
    s.exit cause = some (s.ended.note (.exited s.ended.self.pid cause)) := by
  have hNone : ∀ l : List Slot, l.foldl (adopt s.ended.current) s.ended = s.ended := by
    intro l
    induction l with
    | nil => rfl
    | cons i l ih =>
      have hTurn : adopt s.ended.current s.ended i = s.ended := if_neg fun hChild => h i hChild.2
      rw [List.foldl_cons, hTurn, ih]
  rw [exit, if_neg hInit]
  exact congrArg (fun u : Table => some (u.note (.exited s.ended.self.pid cause)))
    (hNone (List.finRange maxProcCount))

/-- The zombie that is left of a process. -/
structure Ended (p r : Proc) : Prop where
  state : r.state = .zombie
  point : r.point = .exited
  pid : r.pid = p.pid
  killed : r.killed = p.killed
  parent : r.parent = p.parent
  exitCode : r.exitCode = p.ax.setWidth 8

theorem ended_wakeup (s : Table) :
    ∃ channel, s.ended = (s.emptied.wakeup channel).suspend .zombie .exited ∧
      ∀ q, s.self.parent = some q → channel = .proc q := by
  have hParent : s.emptied.self.parent = s.self.parent := by rw [emptied, self_setSelf]
  rw [ended, hParent]
  cases s.self.parent with
  | none => exact ⟨.null, rfl, fun q h => nomatch h⟩
  | some q => exact ⟨.proc q, rfl, fun q' h => congrArg _ (Option.some.inj h)⟩

theorem ended_eq (s : Table) : s.ended = { s with procs := s.ended.procs, running := false } := by
  obtain ⟨channel, hEq, -⟩ := ended_wakeup s
  rw [hEq]
  rfl

theorem ended_self (s : Table) : Ended s.self (s.ended.procs s.current) := by
  obtain ⟨channel, hEq, -⟩ := ended_wakeup s
  have hWoken := wakeup_released s.emptied channel s.current s.current
  have hSelf : s.emptied.procs s.current =
      { s.self with pages := fun _ => none, exitCode := s.self.ax.setWidth 8 } :=
    self_setSelf s _
  rw [hSelf] at hWoken
  have hParent := (wakeup_woken s.emptied channel s.current).parent
  rw [hSelf] at hParent
  have hNow : s.ended.procs s.current =
      { (s.emptied.wakeup channel).procs s.current with state := .zombie, point := .exited } := by
    rw [hEq]
    exact Function.update_self ..
  rw [hNow]
  exact ⟨rfl, rfl, hWoken.pid, hWoken.killed, hParent, hWoken.exitCode⟩

theorem ended_other (s : Table) {p : Slot} (hOther : p ≠ s.current) :
    Released s.current (s.procs p) (s.ended.procs p) ∧
      (s.ended.procs p).parent = (s.procs p).parent := by
  obtain ⟨channel, hEq, -⟩ := ended_wakeup s
  have hSame : s.emptied.procs p = s.procs p := by
    rw [emptied, setSelf, procs_setProc, if_neg hOther]
  have hNow : s.ended.procs p = (s.emptied.wakeup channel).procs p := by
    rw [hEq]
    exact Function.update_of_ne hOther _ _
  rw [hNow, ← hSame]
  exact ⟨wakeup_released _ _ _ _, (wakeup_woken _ _ _).parent⟩

theorem ended_awake (s : Table) {q : Slot} (hParent : s.self.parent = some q) :
    s.ended.Awake (.proc q) := by
  obtain ⟨channel, hEq, hChannel⟩ := ended_wakeup s
  intro p hState
  by_cases hSelf : p = s.current
  · -- the process itself does not sleep any more
    rw [hSelf, (ended_self s).state] at hState
    cases hState
  · have hNow : s.ended.procs p = (s.emptied.wakeup channel).procs p := by
      rw [hEq]
      exact Function.update_of_ne hSelf _ _
    rw [hNow] at hState ⊢
    rw [← hChannel q hParent]
    exact wakeup_awake s.emptied channel p hState

/-- What `sys_exit` does, as the rest of the table sees it. -/
structure Exits (s : Table) (cause : ExitCause) (t : Table) : Prop where
  notInit : s.current ≠ initProcess
  rest : t = { s with
    procs := t.procs
    running := false
    log := .exited s.self.pid cause :: s.log }
  ended : Ended { s.self with parent := (t.procs s.current).parent } (t.procs s.current)
  parent : (t.procs s.current).parent = s.self.parent ∨
    s.self.parent = some s.current ∧ (t.procs s.current).parent = some initProcess
  released : ∀ p, p ≠ s.current → Released s.current (s.procs p) (t.procs p)
  orphans : ∀ p, (t.procs p).state ≠ .unused → (t.procs p).parent ≠ some s.current
  parentAwake : ∀ q, s.self.parent = some q → t.Awake (.proc q)
  initAwake : ∀ j, (s.procs j).state = .zombie → (s.procs j).parent = some s.current →
    j ≠ s.current → t.Awake (.proc initProcess)

/-- `sys_exit` meets its description. -/
theorem exit_exits {cause : ExitCause} (h : s.exit cause = some t) : Exits s cause t := by
  obtain ⟨hInit, l, hAll, rfl⟩ := exit_eq_some h
  have hCurrent : s.ended.current = s.current := by rw [ended_eq]
  have hPid : s.ended.self.pid = s.self.pid := by
    rw [self, hCurrent]
    exact (ended_self s).pid
  -- two parts: `ended` for the process itself and its parent, and the loop that gives its
  -- children to "init"
  have hLoop := foldl_adopt_released s.current l s.ended
  have hSelf := ended_self s
  rw [hCurrent, hPid]
  refine ⟨hInit, ?_, ?_, ?_, ?_, ?_, ?_, ?_⟩
  · rw [note, foldl_adopt_eq, ended_eq]
  · have hLater := hLoop s.current
    refine ⟨?_, hLater.point.trans hSelf.point, hLater.pid.trans hSelf.pid,
      hLater.killed.trans hSelf.killed, rfl, hLater.exitCode.trans hSelf.exitCode⟩
    have hState := hLater.state
    rw [hSelf.state] at hState
    exact hState.resolve_right (by rintro ⟨⟨⟩, -⟩)
  · have hLater := (hLoop s.current).parent
    rw [hSelf.parent] at hLater
    exact hLater
  · intro p hOther
    exact (ended_other s hOther).1.trans (hLoop p)
  · intro p hUsed
    refine foldl_adopt_parent s.current _ hInit s.ended (hAll p) ?_
    have hState := (hLoop p).state
    rintro hUnused
    rw [hUnused] at hState
    exact hUsed (hState.resolve_right (by rintro ⟨⟨⟩, -⟩))
  · intro q hParent
    exact (ended_awake s hParent).released hLoop
  · intro j hState hParent hOther
    obtain ⟨hReleased, hSame⟩ := ended_other s hOther
    have hStill := hReleased.state
    rw [hState] at hStill
    exact foldl_adopt_awake s.current _ s.ended (hAll j)
      (hStill.resolve_right (by rintro ⟨⟨⟩, -⟩)) (hSame.trans hParent)

/-! ## §3 Whose turn it is -/

/-- A calm move gives the CPU to nobody. -/
theorem Calm.turn {s t : Table} (h : Calm s t) :
    t.current = s.current ∧ t.roundRobinIndex = s.roundRobinIndex ∧
      (s.running = false → t.running = false) := by
  cases h with
  | tick hTick =>
    obtain ⟨-, ⟨-, rfl⟩ | ⟨-, rfl⟩⟩ := timerInterrupt_cases hTick
    · exact ⟨rfl, rfl, id⟩
    · exact ⟨rfl, rfl, id⟩
  | act r running hRun _ =>
    refine ⟨rfl, rfl, fun hIdle => ?_⟩
    rw [hRun] at hIdle
    cases hIdle
  | exit cause hRun _ hExit =>
    rw [(exit_exits hExit).rest]
    exact ⟨rfl, rfl, fun _ => rfl⟩
  | _ => exact ⟨rfl, rfl, id⟩

theorem Calms.turn {s t : Table} (h : Calms s t) :
    t.current = s.current ∧ t.roundRobinIndex = s.roundRobinIndex ∧
      (s.running = false → t.running = false) := by
  induction h with
  | refl => exact ⟨rfl, rfl, id⟩
  | tail _ hLast ih =>
    have hNext := hLast.turn
    exact ⟨hNext.1.trans ih.1, hNext.2.1.trans ih.2.1, hNext.2.2 ∘ ih.2.2⟩

end Table

end Xv6502.Kernel
