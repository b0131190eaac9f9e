import Xv6502.Kernel.StateMachine

/-!
# Waiting for Children

`sys_wait` frees a child that has exited, hands out the exit code that child ended with, and
reports no child twice. But it returns the pid through a local of type `uint8_t`, so the caller
sees the whole pid only while pids are below 256.
-/

namespace Xv6502.Kernel

open Xv6502.Emulator Xv6502.Lib

/-- The child that a notice reports as reaped. -/
def Notice.reapedChild : Notice → Option Word
  | .reaped _ child _ => some child
  | _ => none

/-- The process that a notice reports as ended. -/
def Notice.exitedPid : Notice → Option Word
  | .exited pid _ => some pid
  | _ => none

/-- The byte of user memory at an address. -/
def Proc.byteAt (p : Proc) (addr : Word) : Option Byte :=
  (p.pages (segmentOf addr)).map (· (addr.toNat % 0x1000))

namespace Table

variable {s t : Table}

/-! ## §1 Exits and reports -/

/-- A zombie has the code it ended with, every process ends once, and no process that is left has
    been reported. -/
structure Reports (s : Table) : Prop where
  zombies : ∀ p, (s.procs p).state = .zombie →
    ∃ cause, .exited (s.procs p).pid cause ∈ s.log ∧ (s.procs p).exitCode = cause.code
  gone : ∀ pid ∈ s.log.filterMap Notice.reapedChild, ∀ p, (s.procs p).state ≠ .unused →
    (s.procs p).pid ≠ pid
  once : (s.log.filterMap Notice.reapedChild).Nodup
  ended : ∀ pid ∈ s.log.filterMap Notice.exitedPid, ∀ p, (s.procs p).state ≠ .unused →
    (s.procs p).pid = pid → (s.procs p).state = .zombie
  exits : (s.log.filterMap Notice.exitedPid).Nodup

theorem reapedChild_mem {notice : Notice} {pid : Word} (h : notice.reapedChild = some pid) :
    pid ∈ notice.pids := by
  cases notice with
  | reaped parent child result =>
    obtain rfl := Option.some.inj h
    simp [Notice.pids]
  | _ => cases h

theorem exitedPid_mem {notice : Notice} {pid : Word} (h : notice.exitedPid = some pid) :
    pid ∈ notice.pids := by
  cases notice with
  | exited pid' cause =>
    obtain rfl := Option.some.inj h
    simp [Notice.pids]
  | _ => cases h

/-- The next pid is in no notice. -/
theorem nextPid_ne (h : Pids s) (hPid : s.nextPid ≠ 0) {f : Notice → Option Word}
    (hf : ∀ notice pid, f notice = some pid → pid ∈ notice.pids) {pid : Word}
    (hMem : pid ∈ s.log.filterMap f) : s.nextPid ≠ pid := by
  obtain ⟨notice, hNotice, hIs⟩ := List.mem_filterMap.mp hMem
  have hBound := h.logged notice hNotice pid (hf notice pid hIs)
  rw [pidLimit_of_ne hPid] at hBound
  rintro rfl
  exact absurd hBound (Nat.lt_irrefl _)

namespace Reports

theorem steady (h : Reports s) (hSteady : Steady s t) : Reports t := by
  have hKeeps := hSteady.keeps
  -- a steady move logs nothing about an exit or a wait
  have hLog : (∀ notice ∈ s.log, notice ∈ t.log) ∧
      t.log.filterMap Notice.reapedChild = s.log.filterMap Notice.reapedChild ∧
        t.log.filterMap Notice.exitedPid = s.log.filterMap Notice.exitedPid := by
    rcases hSteady.log with hLog | ⟨start, ticks, hLog⟩ | ⟨i, -, hLog⟩
    · simp [hLog]
    · exact hLog ▸ ⟨fun notice => List.mem_cons_of_mem _, rfl, rfl⟩
    · exact hLog ▸ ⟨fun notice => List.mem_cons_of_mem _, rfl, rfl⟩
  have hUsed : ∀ p, (t.procs p).state ≠ .unused → (s.procs p).state ≠ .unused :=
    fun p hp hUnused => hp ((hKeeps p).unused.mpr hUnused)
  refine ⟨?_, ?_, ?_, ?_, ?_⟩
  · intro p hState
    obtain ⟨cause, hExit, hCode⟩ := h.zombies p ((hKeeps p).zombie.mp hState)
    rw [(hKeeps p).pid, (hKeeps p).exitCode hState]
    exact ⟨cause, hLog.1 _ hExit, hCode⟩
  · intro pid hMem p hp
    rw [(hKeeps p).pid]
    exact h.gone pid (hLog.2.1 ▸ hMem) p (hUsed p hp)
  · rw [hLog.2.1]
    exact h.once
  · intro pid hMem p hp hPid
    rw [(hKeeps p).pid] at hPid
    exact (hKeeps p).zombie.mpr (h.ended pid (hLog.2.2 ▸ hMem) p (hUsed p hp) hPid)
  · rw [hLog.2.2]
    exact h.exits

theorem create (h : Reports s) (hPids : Pids s) {child : Slot} (hPid : s.nextPid ≠ 0) :
    Reports (s.create child) := by
  -- the child's pid is new, so no notice is about it
  have hNow := procs_create s child
  refine ⟨?_, ?_, h.once, ?_, h.exits⟩
  · intro p hState
    rw [hNow] at hState ⊢
    split at hState
    · cases hState
    · next hNe =>
      rw [if_neg hNe]
      obtain ⟨cause, hExit, hCode⟩ := h.zombies p hState
      exact ⟨cause, List.mem_cons_of_mem _ hExit, hCode⟩
  · intro pid hMem p hUsed
    have hMem : pid ∈ s.log.filterMap Notice.reapedChild := hMem
    rw [hNow] at hUsed ⊢
    split at hUsed
    · next hEq =>
      rw [if_pos hEq]
      exact nextPid_ne hPids hPid (fun _ _ => reapedChild_mem) hMem
    · next hNe =>
      rw [if_neg hNe]
      exact h.gone pid hMem p hUsed
  · intro pid hMem p hUsed hSame
    have hMem : pid ∈ s.log.filterMap Notice.exitedPid := hMem
    rw [hNow] at hUsed hSame ⊢
    split at hUsed
    · next hEq =>
      rw [if_pos hEq] at hSame
      exact absurd hSame (nextPid_ne hPids hPid (fun _ _ => exitedPid_mem) hMem)
    · next hNe =>
      rw [if_neg hNe] at hSame ⊢
      exact h.ended pid hMem p hUsed hSame

theorem exit (h : Reports s) (hLife : Life s) (hPids : Pids s) {cause : ExitCause} (hRun : s.running = true)
    (hCode : s.self.ax.setWidth 8 = cause.code) (hExits : Exits s cause t) : Reports t := by
  have hLog : t.log = .exited s.self.pid cause :: s.log := by rw [hExits.rest]
  have hReleased := hExits.released
  have hTurn := hLife.turn hRun
  have hSelf : (s.procs s.current).state ≠ .unused := by
    rw [← self, hTurn]
    simp
  refine ⟨?_, ?_, ?_, ?_, ?_⟩
  · intro p hState
    by_cases hp : p = s.current
    · subst hp
      refine ⟨cause, ?_, hExits.ended.exitCode.trans hCode⟩
      rw [hLog, hExits.ended.pid]
      exact List.mem_cons_self
    · have hBefore := (hReleased p hp).state
      obtain ⟨cause', hExit, hCode'⟩ := h.zombies p (by grind)
      rw [(hReleased p hp).pid, (hReleased p hp).exitCode, hLog]
      exact ⟨cause', List.mem_cons_of_mem _ hExit, hCode'⟩
  · intro pid hMem p hUsed
    rw [hLog] at hMem
    by_cases hp : p = s.current
    · subst hp
      rw [hExits.ended.pid]
      exact h.gone pid hMem s.current hSelf
    · have hState := (hReleased p hp).state
      rw [(hReleased p hp).pid]
      exact h.gone pid hMem p (by grind)
  · rw [hLog]
    exact h.once
  · intro pid hMem p hUsed hPid
    by_cases hp : p = s.current
    · exact hp ▸ hExits.ended.state
    · have hState := (hReleased p hp).state
      rw [(hReleased p hp).pid] at hPid
      rw [hLog] at hMem
      rcases List.mem_cons.mp hMem with hNow | hOld
      · -- another process has another pid
        subst hNow
        exact absurd (hPids.distinct p s.current (by grind) hSelf hPid) hp
      · have hBefore := h.ended pid hOld p (by grind) hPid
        grind
  · rw [hLog]
    -- who has a notice of exit is a zombie, and the process that ends is not yet
    refine List.nodup_cons.mpr ⟨fun hMem => ?_, h.exits⟩
    have hZombie := h.ended _ hMem s.current hSelf rfl
    rw [← self, hTurn] at hZombie
    cases hZombie

theorem frees (h : Reports s) (hPids : Pids s) {i : Slot} (hFrees : Frees s i t) : Reports t := by
  have hUsed : ∀ p, (t.procs p).state ≠ .unused →
      p ≠ i ∧ (s.procs p).state ≠ .unused ∧ (t.procs p).pid = (s.procs p).pid := by
    intro p hp
    have hNe : p ≠ i := by
      rintro rfl
      exact hp hFrees.state
    have hKeeps := hFrees.keeps p hNe
    exact ⟨hNe, fun hUnused => hp (hKeeps.unused.mpr hUnused), hKeeps.pid⟩
  have hZombies : ∀ p, (t.procs p).state = .zombie →
      ∃ cause, .exited (t.procs p).pid cause ∈ s.log ∧ (t.procs p).exitCode = cause.code := by
    intro p hState
    obtain ⟨hNe, -, hPid⟩ := hUsed p (by simp [hState])
    have hKeeps := hFrees.keeps p hNe
    rw [hPid, hKeeps.exitCode hState]
    exact h.zombies p (hKeeps.zombie.mp hState)
  have hEnded : ∀ pid ∈ s.log.filterMap Notice.exitedPid, ∀ p, (t.procs p).state ≠ .unused →
      (t.procs p).pid = pid → (t.procs p).state = .zombie := by
    intro pid hMem p hp hIs
    obtain ⟨hNe, hBefore, hPid⟩ := hUsed p hp
    exact (hFrees.keeps p hNe).zombie.mpr (h.ended pid hMem p hBefore (hPid ▸ hIs))
  -- a zombie is reaped, with a notice, or a child never published is given up, without
  rcases hFrees.log with ⟨hZombie, result, hLog⟩ | ⟨-, hLog⟩
  · have hChild : (s.procs i).state ≠ .unused := by simp [hZombie]
    have hList : t.log.filterMap Notice.reapedChild =
        (s.procs i).pid :: s.log.filterMap Notice.reapedChild := by
      rw [hLog]
      rfl
    have hExits : t.log.filterMap Notice.exitedPid = s.log.filterMap Notice.exitedPid := by
      rw [hLog]
      rfl
    refine ⟨?_, ?_, ?_, ?_, ?_⟩
    · intro p hState
      obtain ⟨cause, hExit, hCode⟩ := hZombies p hState
      exact ⟨cause, hLog ▸ List.mem_cons_of_mem _ hExit, hCode⟩
    · intro pid hMem p hp
      obtain ⟨hNe, hBefore, hPid⟩ := hUsed p hp
      rw [hList] at hMem
      rw [hPid]
      rcases List.mem_cons.mp hMem with rfl | hOld
      · exact fun hSame => hNe (hPids.distinct p i hBefore hChild hSame)
      · exact h.gone pid hOld p hBefore
    · rw [hList]
      exact List.nodup_cons.mpr ⟨fun hMem => h.gone _ hMem i hChild rfl, h.once⟩
    · rw [hExits]
      exact hEnded
    · rw [hExits]
      exact h.exits
  · refine ⟨?_, ?_, ?_, ?_, ?_⟩
    · rw [hLog]
      exact hZombies
    · intro pid hMem p hp
      obtain ⟨-, hBefore, hPid⟩ := hUsed p hp
      rw [hPid]
      exact h.gone pid (hLog ▸ hMem) p hBefore
    · rw [hLog]
      exact h.once
    · rw [hLog]
      exact hEnded
    · rw [hLog]
      exact h.exits

theorem move (hLife : Life s) (hPids : Pids s) (h : Reports s) (hMove : Move s t) : Reports t := by
  obtain hSteady | ⟨child, -, hPid, -, rfl⟩ | ⟨cause, hCode, hRun, hExits⟩ | ⟨i, -, hFrees⟩ :=
    hMove.cases hLife
  · exact h.steady hSteady
  · exact h.create hPids hPid
  · exact h.exit hLife hPids hRun hCode hExits
  · exact h.frees hPids hFrees

theorem boot (code : Page) (top : Word) : Reports (boot code top) := by
  refine ⟨?_, ?_, List.nodup_nil, ?_, List.nodup_nil⟩
  · intro p hState
    simp only [Table.boot] at hState
    split at hState <;> cases hState
  · intro pid hMem
    cases hMem
  · intro pid hMem
    cases hMem

end Reports

/-! ## §2 What `sys_wait` returns -/

/-- `sys_wait`, called with a user pointer, returns a value to `kernel_brk`. -/
structure WaitReturns (s : Table) (userExitCode value : Word) (t : Table) : Prop where
  running : s.running = true
  atWait : s.AtWait userExitCode
  step : Step s .proceed t
  value : (t.procs s.current).point = .returning value

/-- The call reports a child: a zombie, by its pid, with the code it ended with, and frees it. -/
structure Reported (s : Table) (userExitCode value : Word) (t : Table) (i : Slot) : Prop where
  child : (s.procs i).parent = some s.current
  zombie : (s.procs i).state = .zombie
  code : ∃ cause, .exited (s.procs i).pid cause ∈ s.log ∧
    (userExitCode ≠ 0 → (t.procs s.current).byteAt userExitCode = some cause.code)
  freed : (t.procs i).state = .unused
  pid : value = (s.procs i).pid

/-- A call that returns -1 has changed no process but for the return, and any other reports a
    child. -/
def WaitExact (s : Table) (userExitCode value : Word) (t : Table) : Prop :=
  (value = -1 → t = s.goto (.returning (-1))) ∧
    (value ≠ -1 → ∃ i, Reported s userExitCode value t i)

/-- The zombie `sys_wait` finds. -/
def firstZombie (s : Table) : Option Slot :=
  find fun i => s.isChild i && (s.procs i).state == .zombie

/-- The user pointer is `NULL`, or `copy_to_user` accepts it. -/
def Writable (s : Table) (userExitCode : Word) : Prop :=
  userExitCode = 0 ∨
    userExitCode < s.self.top ∧ s.self.pages (segmentOf userExitCode) ≠ none

/-- The zombie that the call reaps, if it reaps one, has a pid of one byte. -/
def ReapsSmall (s : Table) (userExitCode : Word) : Prop :=
  ∀ i, s.firstZombie = some i → s.Writable userExitCode → (s.procs i).pid.toNat < 0x100

theorem copyToUser_cases (s : Table) (dest : Word) (value : Byte) (hDest : dest ≠ 0) :
    (s.copyToUser dest value = none ∧ ¬ s.Writable dest) ∨
      ∃ u, s.copyToUser dest value = some u ∧ s.Writable dest ∧
        (∀ p, (u.procs p).state = (s.procs p).state ∧ (u.procs p).pid = (s.procs p).pid) ∧
        u.current = s.current ∧ u.self.byteAt dest = some value := by
  rw [copyToUser]
  by_cases hTop : s.self.top ≤ dest
  · refine .inl ⟨if_pos hTop, ?_⟩
    rintro (hNull | ⟨hBelow, -⟩)
    · exact hDest hNull
    · exact absurd hTop (BitVec.not_le.mpr hBelow)
  · rw [if_neg hTop]
    -- one byte lies in one page: mapped or not
    cases hPage : s.self.pages (segmentOf dest) with
    | none =>
      refine .inl ⟨rfl, ?_⟩
      rintro (hNull | ⟨-, hMapped⟩)
      · exact hDest hNull
      · exact hMapped hPage
    | some page =>
      refine .inr ⟨_, rfl, .inr ⟨BitVec.not_le.mp hTop, ?_⟩, ?_, rfl, ?_⟩
      · simp [hPage]
      · intro p
        exact ⟨proj_setProc s _ p _ (·.state) rfl, proj_setProc s _ p _ (·.pid) rfl⟩
      · rw [self_setSelf]
        simp [Proc.byteAt]

/-- The pid as `sys_wait` returns it. -/
def shortPid (pid : Word) : Word := (pid.setWidth 8).setWidth 16

theorem shortPid_eq_iff (pid : Word) : shortPid pid = pid ↔ pid.toNat < 0x100 := by
  have hShort : (shortPid pid).toNat = pid.toNat % 0x100 := by
    simp only [shortPid, BitVec.toNat_setWidth]
    omega
  constructor
  · intro hEq
    rw [hEq] at hShort
    omega
  · intro hSmall
    apply BitVec.eq_of_toNat_eq
    rw [hShort, Nat.mod_eq_of_lt hSmall]

theorem shortPid_ne (pid : Word) : shortPid pid ≠ -1 := by
  intro hEq
  have hShort : (shortPid pid).toNat = pid.toNat % 0x100 := by
    simp only [shortPid, BitVec.toNat_setWidth]
    omega
  rw [hEq] at hShort
  have hMinus : (-1 : Word).toNat = 0xffff := by decide
  omega

theorem procs_reap (u : Table) {i : Slot} (hOther : i ≠ u.current) (p : Slot) :
    (u.reap i).procs p =
      if p = i then { u.procs i with state := .unused }
      else if p = u.current then { u.self with point := .returning (shortPid (u.procs i).pid) }
      else u.procs p := by
  have hGoto : (u.reap i).procs =
      ((u.free i).goto (.returning (shortPid (u.procs i).pid))).procs := rfl
  have hSame : (u.goto (.returning (shortPid (u.procs i).pid))).procs i = u.procs i := by
    rw [goto_eq_become, procs_become, if_neg hOther]
  rw [hGoto, free, setProc_goto_comm _ _ _ hOther, procs_setProc, hSame]
  split
  · rfl
  · rw [goto_eq_become, procs_become]

/-- `sys_wait` goes on with a turn of its loop. -/
theorem atWait_proceed {userExitCode : Word} (hWait : s.AtWait userExitCode)
    (h : s.proceed = some t) : ∃ hasChildren, t = s.waitTurn userExitCode hasChildren := by
  rcases hWait with hPoint | ⟨rfl, number, hPoint, hCall⟩
  · rw [proceed, hPoint] at h
    exact ⟨true, (Option.some.inj h).symm⟩
  · rw [proceed, hPoint] at h
    have hBrk : s.kernelBrk number = some t := h
    rw [kernelBrk, hCall] at hBrk
    exact ⟨false, (Option.some.inj hBrk).symm⟩

theorem firstZombie_spec {i : Slot} (h : s.firstZombie = some i) :
    (s.procs i).parent = some s.current ∧ (s.procs i).state = .zombie := by
  have hTest := find_some h
  simp only [isChild, Bool.and_eq_true, beq_iff_eq] at hTest
  exact ⟨hTest.1.2, hTest.2⟩

/-- The table in which `sys_wait` has freed its zombie, and no other process. -/
theorem reap_shows {u : Table} {i : Slot} (hOther : i ≠ s.current) (hCurrent : u.current = s.current)
    (hSame : ∀ p, (u.procs p).state = (s.procs p).state ∧ (u.procs p).pid = (s.procs p).pid) :
    ((u.reap i).procs i).state = .unused ∧
      (∀ p, p ≠ i → ((u.reap i).procs p).state = (s.procs p).state) ∧
      ((u.reap i).procs s.current).point = .returning (shortPid (s.procs i).pid) ∧
      ∀ addr, ((u.reap i).procs s.current).byteAt addr = u.self.byteAt addr := by
  have hNow := procs_reap u (hCurrent ▸ hOther)
  refine ⟨?_, ?_, ?_, ?_⟩
  · rw [hNow, if_pos rfl]
  · intro p hNe
    rw [hNow, if_neg hNe, ← (hSame p).1]
    split
    · next hSelf => rw [hSelf, self]
    · rfl
  · rw [hNow, if_neg hOther.symm, if_pos hCurrent.symm, (hSame i).2]
  · intro addr
    rw [hNow, if_neg hOther.symm, if_pos hCurrent.symm]
    rfl

/-- A call that returns frees nothing and returns -1, or has found a zombie, written its code and
    freed it. -/
theorem waitReturns_cases (hLife : Life s) {userExitCode value : Word}
    (h : WaitReturns s userExitCode value t) :
    (value = -1 ∧ t = s.goto (.returning (-1)) ∧
      (s.firstZombie = none ∨ ¬ s.Writable userExitCode)) ∨
    ∃ i, s.firstZombie = some i ∧ s.Writable userExitCode ∧ value = shortPid (s.procs i).pid ∧
      (t.procs i).state = .unused ∧ (∀ p, p ≠ i → (t.procs p).state = (s.procs p).state) ∧
      (userExitCode ≠ 0 →
        (t.procs s.current).byteAt userExitCode = some (s.procs i).exitCode) := by
  obtain ⟨hRun, hWait, hStep, hValue⟩ := h
  have hProceed : s.proceed = some t := (Option.ite_none_right_eq_some.mp hStep).2
  obtain ⟨hasChildren, rfl⟩ := atWait_proceed hWait hProceed
  have hMinus : ((s.goto (.returning (-1))).procs s.current).point = .returning (-1) := by
    rw [goto_eq_become, procs_become, if_pos rfl]
  rw [waitTurn] at hValue ⊢
  -- the first zombie among the children, if there is one
  cases hFind : find fun i => s.isChild i && (s.procs i).state == .zombie with
  | none =>
    rw [hFind] at hValue
    dsimp only at hValue ⊢
    split at hValue
    · -- a process that sleeps does not return
      rw [sleep_eq_become, procs_become, if_pos rfl] at hValue
      cases hValue
    · next hNone =>
      rw [hMinus] at hValue
      rw [if_neg hNone]
      exact .inl ⟨(Place.returning.inj hValue).symm, rfl, .inl hFind⟩
  | some i =>
    obtain ⟨hParent, hZombie⟩ := firstZombie_spec hFind
    have hOther : i ≠ s.current := by
      rintro rfl
      have hTurn := hLife.turn hRun
      rw [self, hZombie] at hTurn
      cases hTurn
    rw [hFind] at hValue
    dsimp only at hValue ⊢
    -- a null pointer asks for no code; otherwise the child is freed behind a copy that succeeds
    by_cases hNull : userExitCode = 0
    · rw [if_pos hNull] at hValue ⊢
      obtain ⟨hFreed, hOthers, hPoint, -⟩ := reap_shows hOther rfl fun p => ⟨rfl, rfl⟩
      rw [hPoint] at hValue
      refine .inr ⟨i, hFind, .inl hNull, (Place.returning.inj hValue).symm, hFreed, hOthers, ?_⟩
      exact fun hNe => absurd hNull hNe
    · rw [if_neg hNull] at hValue ⊢
      obtain ⟨hCopy, hNot⟩ | ⟨u, hCopy, hWritable, hSame, hCurrent, hByte⟩ :=
        copyToUser_cases s userExitCode (s.procs i).exitCode hNull
      · rw [hCopy] at hValue ⊢
        rw [hMinus] at hValue
        exact .inl ⟨(Place.returning.inj hValue).symm, rfl, .inr hNot⟩
      · rw [hCopy] at hValue ⊢
        obtain ⟨hFreed, hOthers, hPoint, hBytes⟩ := reap_shows hOther hCurrent hSame
        rw [hPoint] at hValue
        refine .inr ⟨i, hFind, hWritable, (Place.returning.inj hValue).symm, hFreed, hOthers, ?_⟩
        intro _
        rw [hBytes]
        exact hByte

/-! ## §3 Every run -/

/-- **`sys_wait` reports exactly the children that exited, if and only if their pids fit into a
    byte**; no child is reported twice and none ends twice. -/
theorem wait_reports_iff {code : Page} {top : Word} {es : List Event}
    (hRun : Run Step (boot code top) es s) :
    (s.log.filterMap Notice.reapedChild).Nodup ∧ (s.log.filterMap Notice.exitedPid).Nodup ∧
      ∀ userExitCode value t, WaitReturns s userExitCode value t →
        (WaitExact s userExitCode value t ↔ ReapsSmall s userExitCode) := by
  have hMove : ∀ s t, Life s → Pids s ∧ Reports s → Move s t → Pids t ∧ Reports t := by
    rintro s t hLife ⟨hPids, hReports⟩ hMove
    exact ⟨hPids.move hLife hMove, hReports.move hLife hPids hMove⟩
  obtain ⟨hLife, -, hReports⟩ := invariant_of_moves hMove hRun (Life.boot code top)
    ⟨Pids.boot code top, Reports.boot code top⟩
  refine ⟨hReports.once, hReports.exits, ?_⟩
  intro userExitCode value t hReturns
  obtain ⟨rfl, hEq, hNone⟩ | ⟨i, hFind, hWritable, rfl, hFreed, hOthers, hByte⟩ :=
    waitReturns_cases hLife hReturns
  · constructor
    · intro _ i hFind hWritable
      rcases hNone with hNot | hNot
      · rw [hNot] at hFind
        cases hFind
      · exact absurd hWritable hNot
    · intro _
      exact ⟨fun _ => hEq, fun hNe => absurd rfl hNe⟩
  · obtain ⟨hParent, hZombie⟩ := firstZombie_spec hFind
    constructor
    · rintro ⟨-, hReported⟩ j hFindJ -
      rw [hFind] at hFindJ
      obtain rfl := Option.some.inj hFindJ
      obtain ⟨k, hReported⟩ := hReported (shortPid_ne _)
      -- the only process that is freed is the zombie
      have hIs : k = i := by
        by_contra hNe
        have hState := hOthers k hNe
        rw [hReported.freed, hReported.zombie] at hState
        cases hState
      subst hIs
      exact (shortPid_eq_iff _).mp hReported.pid
    · intro hSmall
      refine ⟨fun hMinus => absurd hMinus (shortPid_ne _), fun _ => ⟨i, ?_⟩⟩
      refine ⟨hParent, hZombie, ?_, hFreed, ?_⟩
      · obtain ⟨cause, hExit, hCode⟩ := hReports.zombies i hZombie
        exact ⟨cause, hExit, fun hNe => hCode ▸ hByte hNe⟩
      · exact (shortPid_eq_iff _).mpr (hSmall i hFind hWritable)

theorem reaping_zombie {code : Page} {top pid : Word} {log : List Notice} {i : Slot}
    (h : ((reaping code top pid log).procs i).state = .zombie) :
    ((reaping code top pid log).procs i).pid = pid := by
  by_cases hZero : i = 0
  · simp [reaping, pair, hZero, parentAt] at h
  · by_cases hOne : i = 1
    · simp [reaping, hOne, childAt]
    · simp [reaping, pair, hZero, hOne, emptySlot] at h

/-- The child with pid 256 is reported as 0. -/
theorem wait_truncates :
    ∃ es s t, Run Step (boot (fun _ => 0) 0x800) es s ∧ WaitReturns s 0 0 t ∧
      ¬ WaitExact s 0 0 t := by
  obtain ⟨es, log, hRun⟩ := boot_reaping (fun _ => 0) 0x800 256 (by decide)
  refine ⟨es, _, _, hRun, ⟨rfl, .inl rfl, pair_reap, rfl⟩, ?_⟩
  rintro ⟨-, hReported⟩
  obtain ⟨i, -, hZombie, -, -, hPid⟩ := hReported (by decide)
  rw [reaping_zombie hZombie] at hPid
  exact absurd hPid (by decide)

/-- The first child of "init" is reported by its pid. -/
theorem first_child_reported :
    ∃ log t, WaitExact (reaping (fun _ => 0) 0x800 2 log) 0 2 t := by
  have hRun := (boot_resting (fun _ => 0) 0x800).append
    (resting_reaping (fun _ => 0) 0x800 rfl (by decide))
  obtain ⟨-, -, hWaits⟩ := wait_reports_iff hRun
  refine ⟨_, _, (hWaits 0 2 _ ⟨rfl, .inl rfl, pair_reap, rfl⟩).mpr ?_⟩
  intro i hFind _
  rw [reaping_zombie (firstZombie_spec hFind).2]
  decide

end Table

end Xv6502.Kernel
