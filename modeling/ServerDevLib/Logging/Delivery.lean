import ServerDevLib.Logging.Logger

/-!
# Messages reach every sink in order

A batch is what `_backup_buf` has between a swap and its clearing; it is empty
at every swap. What a sink was given is then the earlier batches followed by a
part of the present one. The branch for a `FATAL` message clears both buffers,
whatever has entered `_buf` in the meantime.
-/

namespace ServerDevLib.Logging

open Transition

universe u

namespace FlushPc

/-- The flush thread is not at work on a batch. -/
def outside : FlushPc → Bool
  | .writing _ _ | .fatal _ _ | .clear | .aborted => false
  | _ => true

/-- How many messages of a batch of the size sink `d` was given. -/
def position (size d : Nat) : FlushPc → Nat
  | .writing i j => if d < j then i + 1 else i
  | .fatal i _ => i + 1
  | .clear => size
  | _ => 0

theorem position_of_outside {pc : FlushPc} (h : pc.outside = true) (size d : Nat) :
    pc.position size d = 0 := by
  cases pc with
  | writing | fatal | clear => cases h
  | _ => rfl

theorem cleared_of_outside {pc : FlushPc} (h : pc.outside = true) : pc.cleared = false := by
  cases pc with
  | writing | fatal | clear | aborted => cases h
  | _ => rfl

end FlushPc

namespace Logger

variable {K : Type u}

/-- The undelivered rest of `_backup_buf` for sink `d`. -/
def rest (s : Logger K) (d : Nat) : List LogMessage :=
  s.backupBuf.drop (s.flush.position s.backupBuf.length d)

/-- The batches before the present one were delivered, and a part of this one. -/
def Written (sinks : Nat) (s : Logger K) (earlier : List LogMessage) : Prop :=
  s.entered = earlier ++ (s.backupBuf ++ s.buf) ∧
    ∀ d < sinks, s.delivered d = earlier ++ s.backupBuf.take (s.flush.position s.backupBuf.length d)

/-- Every sink was given what has entered up to some `FATAL` message, and no more. -/
def Ended (sinks : Nat) (s : Logger K) : Prop :=
  ∃ earlier msg, msg.level = .FATAL ∧ earlier ++ [msg] <+: s.entered ∧
    ∀ d < sinks, s.delivered d = earlier ++ [msg]

structure InOrder (sinks : Nat) (s : Logger K) : Prop where
  written : s.flush.cleared = false → ∃ earlier, s.Written sinks earlier
  dest : s.flush.cleared = false → s.destVec = sinks
  empty : s.flush.outside = true → s.backupBuf = []
  fatal : ∀ i stage, s.flush = .fatal i stage → s.flush.cleared = false →
    ∃ msg, s.backupBuf[i]? = some msg ∧ msg.level = .FATAL
  ended : s.flush.cleared = true → s.Ended sinks

variable {sinks : Nat} {s s' : Logger K}

/-- A move within a batch after which every sink has been given as much as before. -/
theorem InOrder.within (h : s.InOrder sinks) {pc : FlushPc} (hcleared : s.flush.cleared = false)
    (hpc : pc.cleared = false) (houtside : pc.outside = true → s.backupBuf = [])
    (hfatal : ∀ i stage, pc = .fatal i stage →
      ∃ msg, s.backupBuf[i]? = some msg ∧ msg.level = .FATAL)
    (hsame : ∀ d < sinks, s.backupBuf.take (pc.position s.backupBuf.length d) =
      s.backupBuf.take (s.flush.position s.backupBuf.length d)) :
    ({ s with flush := pc } : Logger K).InOrder sinks where
  written _ := by
    obtain ⟨earlier, hentered, hdelivered⟩ := h.written hcleared
    refine ⟨earlier, hentered, fun d hd => ?_⟩
    change s.delivered d = earlier ++ s.backupBuf.take (pc.position _ d)
    rw [hdelivered d hd, hsame d hd]
  dest _ := h.dest hcleared
  empty := houtside
  fatal i stage heq _ := hfatal i stage heq
  ended htrue := by
    change pc.cleared = true at htrue
    rw [hpc] at htrue
    cases htrue

theorem InOrder.move (h : s.InOrder sinks) {pc : FlushPc} (hold : s.flush.outside = true)
    (hnew : pc.outside = true) : ({ s with flush := pc } : Logger K).InOrder sinks := by
  refine h.within (FlushPc.cleared_of_outside hold) (FlushPc.cleared_of_outside hnew)
    (fun _ => h.empty hold) ?_ fun d _ => ?_
  · rintro i stage rfl
    cases hnew
  · rw [FlushPc.position_of_outside hold, FlushPc.position_of_outside hnew]

theorem InOrder.swap (h : s.InOrder sinks) (hpc : s.flush = .swap) :
    ({ s with buf := s.backupBuf, backupBuf := s.buf, flush := .writing 0 0 } :
      Logger K).InOrder sinks := by
  have hcleared : s.flush.cleared = false := by rw [hpc]; rfl
  have hempty : s.backupBuf = [] := h.empty (by rw [hpc]; rfl)
  refine ⟨fun _ => ?_, fun _ => h.dest hcleared, nofun, nofun, nofun⟩
  obtain ⟨earlier, hentered, hdelivered⟩ := h.written hcleared
  refine ⟨earlier, ?_, fun d hd => ?_⟩
  · rw [hentered, hempty, List.append_nil, List.nil_append]
  · change s.delivered d = earlier ++ s.buf.take 0
    rw [hdelivered d hd, hempty, List.take_nil, List.take_zero]

theorem InOrder.deliver (h : s.InOrder sinks) {i j : Nat} {msg : LogMessage}
    (hpc : s.flush = .writing i j) (hmsg : s.backupBuf[i]? = some msg) :
    ({ s.deliver j msg with flush := .writing i (j + 1) } : Logger K).InOrder sinks := by
  have hcleared : s.flush.cleared = false := by rw [hpc]; rfl
  refine ⟨fun _ => ?_, fun _ => h.dest hcleared, nofun, nofun, nofun⟩
  obtain ⟨earlier, hentered, hdelivered⟩ := h.written hcleared
  refine ⟨earlier, hentered, fun d hd => ?_⟩
  change Function.update s.delivered j (s.delivered j ++ [msg]) d =
    earlier ++ s.backupBuf.take (if d < j + 1 then i + 1 else i)
  have hold : s.delivered d = earlier ++ s.backupBuf.take (if d < j then i + 1 else i) := by
    rw [hdelivered d hd, hpc]
    rfl
  obtain rfl | hne := eq_or_ne d j
  · rw [if_neg (Nat.lt_irrefl d)] at hold
    rw [Function.update_self, if_pos (Nat.lt_succ_self d), hold, List.take_add_one, hmsg,
      List.append_assoc]
    rfl
  · have hsame : d < j + 1 ↔ d < j := by omega
    rw [Function.update_of_ne hne, hold]
    simp only [hsame]

theorem InOrder.clear (h : s.InOrder sinks) (hpc : s.flush = .clear) :
    ({ s with backupBuf := [], flush := .loopTest } : Logger K).InOrder sinks := by
  have hcleared : s.flush.cleared = false := by rw [hpc]; rfl
  refine ⟨fun _ => ?_, fun _ => h.dest hcleared, fun _ => rfl, nofun, nofun⟩
  obtain ⟨earlier, hentered, hdelivered⟩ := h.written hcleared
  refine ⟨earlier ++ s.backupBuf, ?_, fun d hd => ?_⟩
  · rw [hentered, List.nil_append, List.append_assoc]
  · change s.delivered d = earlier ++ s.backupBuf ++ []
    rw [hdelivered d hd, hpc, List.append_nil]
    exact congrArg (earlier ++ ·) (List.take_length ..)

/-- Once all sinks were given a `FATAL` message, they were given what has entered up to it. -/
theorem InOrder.ended_of_fatal (h : s.InOrder sinks) {i : Nat} {stage : FatalStage}
    (hpc : s.flush = .fatal i stage) (hcleared : s.flush.cleared = false) : s.Ended sinks := by
  obtain ⟨msg, hmsg, hfatal⟩ := h.fatal i stage hpc hcleared
  obtain ⟨earlier, hentered, hdelivered⟩ := h.written hcleared
  have htake : s.backupBuf.take (i + 1) = s.backupBuf.take i ++ [msg] := by
    rw [List.take_add_one, hmsg]
    rfl
  refine ⟨earlier ++ s.backupBuf.take i, msg, hfatal, ?_, fun d hd => ?_⟩
  · refine ⟨s.backupBuf.drop (i + 1) ++ s.buf, ?_⟩
    calc earlier ++ s.backupBuf.take i ++ [msg] ++ (s.backupBuf.drop (i + 1) ++ s.buf)
        = earlier ++ (s.backupBuf.take (i + 1) ++ s.backupBuf.drop (i + 1) ++ s.buf) := by
          rw [htake]
          simp only [List.append_assoc]
      _ = s.entered := by rw [List.take_append_drop, hentered]
  · rw [hdelivered d hd, hpc, List.append_assoc, ← htake]
    rfl

/-- What is left of the `FATAL` branch after `_buf.clear()` delivers nothing. -/
theorem InOrder.of_ended (h : s.Ended sinks) (hcleared : s.flush.cleared = true) :
    s.InOrder sinks := by
  have hno {P : Prop} (hfalse : s.flush.cleared = false) : P := by
    rw [hcleared] at hfalse
    cases hfalse
  refine ⟨hno, hno, fun houtside => ?_, fun _ _ _ => hno, fun _ => h⟩
  exact hno (FlushPc.cleared_of_outside houtside)

theorem inOrder_flush (h : s.InOrder sinks) (hstep : FlushStep s s') : s'.InOrder sinks := by
  cases hstep with
  | enterLoop hpc | leaveLoop hpc | lock hpc | mode hpc | ready hpc | unready hpc | block hpc
  | retest hpc | timeOut hpc | stopReturn hpc | stopPass hpc =>
    exact h.move (by rw [hpc]; rfl) rfl
  | swap hpc => exact h.swap hpc
  | swapNone hpc hbuf =>
    refine h.within (by rw [hpc]; rfl) rfl nofun nofun fun d _ => ?_
    rw [hpc]
    rfl
  | deliver hpc hmsg => exact h.deliver hpc hmsg
  | @fatal i j msg hpc hmsg hsinks hfatal =>
    have hcleared : s.flush.cleared = false := by rw [hpc]; rfl
    refine h.within hcleared rfl nofun ?_ fun d hd => ?_
    · intro i' stage heq
      cases heq
      exact ⟨msg, hmsg, hfatal⟩
    · have hlt : d < j := Nat.lt_of_lt_of_le hd (h.dest hcleared ▸ hsinks)
      rw [hpc, FlushPc.position, FlushPc.position, if_pos hlt]
  | @next i j msg hpc hmsg hsinks =>
    have hcleared : s.flush.cleared = false := by rw [hpc]; rfl
    refine h.within hcleared rfl nofun nofun fun d hd => ?_
    have hlt : d < j := Nat.lt_of_lt_of_le hd (h.dest hcleared ▸ hsinks)
    rw [hpc, FlushPc.position, FlushPc.position, if_pos hlt, if_neg (Nat.not_lt_zero d)]
  | @endBatch i j hpc hdone =>
    have hcleared : s.flush.cleared = false := by rw [hpc]; rfl
    refine h.within hcleared rfl nofun nofun fun d hd => ?_
    rw [hpc, FlushPc.position, FlushPc.position, List.take_length, List.take_of_length_le]
    split <;> omega
  | clear hpc => exact h.clear hpc
  | @fatalStop i hpc =>
    have hcleared : s.flush.cleared = false := by rw [hpc]; rfl
    have hmove : ({ s with flush := .fatal i .clearBuf } : Logger K).InOrder sinks := by
      refine h.within hcleared rfl nofun ?_ fun d _ => by rw [hpc]; rfl
      intro i' stage heq
      cases heq
      exact h.fatal i _ hpc hcleared
    exact ⟨hmove.written, hmove.dest, hmove.empty, hmove.fatal, hmove.ended⟩
  | fatalClearBuf hpc =>
    exact .of_ended (h.ended_of_fatal hpc (by rw [hpc]; rfl)) rfl
  | fatalClearBackup hpc | fatalClearDest hpc | abort hpc =>
    exact .of_ended (h.ended (by rw [hpc]; rfl)) rfl

theorem inOrder_notify (h : s.InOrder sinks) : s.notify.InOrder sinks := by
  rw [notify]
  split
  · rename_i timed hpc
    exact h.move (by rw [hpc]; rfl) rfl
  · exact h

theorem InOrder.push (h : s.InOrder sinks) (msg : LogMessage) :
    ({ s with buf := s.buf ++ [msg], entered := s.entered ++ [msg] } : Logger K).InOrder sinks where
  written hcleared := by
    obtain ⟨earlier, hentered, hdelivered⟩ := h.written hcleared
    refine ⟨earlier, ?_, hdelivered⟩
    change s.entered ++ [msg] = earlier ++ (s.backupBuf ++ (s.buf ++ [msg]))
    rw [hentered]
    simp only [List.append_assoc]
  dest := h.dest
  empty := h.empty
  fatal := h.fatal
  ended hcleared := by
    obtain ⟨earlier, last, hfatal, hprefix, hdelivered⟩ := h.ended hcleared
    exact ⟨earlier, last, hfatal, hprefix.trans (List.prefix_append ..), hdelivered⟩

variable [DecidableEq K]

theorem inOrder_step : (machine K sinks).Preserves (fun _ _ => True) (InOrder sinks) := by
  intro s a s' h _ hstep
  cases step_cases hstep with
  | logWithWaiting | call | notifyNone | destroy | setStop | join =>
    exact ⟨h.written, h.dest, h.empty, h.fatal, h.ended⟩
  | @push k msg hpc =>
    have hpush := h.push msg
    exact ⟨hpush.written, hpush.dest, hpush.empty, hpush.fatal, hpush.ended⟩
  | notifyOne | notifyAll =>
    have hnotify := inOrder_notify h
    exact ⟨hnotify.written, hnotify.dest, hnotify.empty, hnotify.fatal, hnotify.ended⟩
  | flush hmoved => exact inOrder_flush h hmoved
  | wake hpc => exact h.move (by rw [hpc]; rfl) rfl

theorem inOrder_of_reachable (h : (machine K sinks).Reachable s) : s.InOrder sinks := by
  refine h.invariant ?_ inOrder_step
  rintro s rfl
  exact ⟨fun _ => ⟨[], rfl, fun _ _ => rfl⟩, fun _ => rfl, fun _ => rfl, nofun, nofun⟩

/-- As long as the branch for a `FATAL` message has not cleared `_buf`, what each sink was
given, its rest of `_backup_buf` and `_buf` are what has entered `_buf`; in that branch
every sink was given what has entered up to the `FATAL` message. -/
theorem delivered_in_order (h : (machine K sinks).Reachable s) :
    (s.flush.cleared = false →
      ∀ d < sinks, s.delivered d ++ (s.rest d ++ s.buf) = s.entered) ∧
    (s.flush.inFatal = true → s.Ended sinks) := by
  have horder := inOrder_of_reachable h
  constructor
  · intro hcleared d hd
    obtain ⟨earlier, hentered, hdelivered⟩ := horder.written hcleared
    rw [hdelivered d hd, rest, hentered, List.append_assoc, ← List.append_assoc (List.take _ _),
      List.take_append_drop]
  · intro hfatal
    cases hcleared : s.flush.cleared with
    | true => exact horder.ended hcleared
    | false =>
      cases hpc : s.flush with
      | fatal i stage => exact horder.ended_of_fatal hpc hcleared
      | aborted =>
        rw [hpc] at hcleared
        cases hcleared
      | _ =>
        rw [hpc] at hfatal
        cases hfatal

/-- A second message enters `_buf` after the `FATAL` one was delivered. -/
def fatalRun : List (Action Unit) :=
  [.call () .FATAL [], .push (), .notifyOne ()] ++ List.replicate 9 .flush ++
    [.call () .INFO [], .push (), .flush]

theorem delivered_in_order_fatal : ∃ s, (machine Unit 1).run (initial 1) fatalRun = some s ∧
    s.flush = .fatal 0 .clearBackup ∧
    (s.flush.cleared = false →
      ∀ d < 1, s.delivered d ++ (s.rest d ++ s.buf) = s.entered) ∧
    (s.flush.inFatal = true → s.Ended 1) := by
  obtain ⟨s, hrun, hpc⟩ : ∃ s, (machine Unit 1).run (initial 1) fatalRun = some s ∧
    s.flush = .fatal 0 .clearBackup := ⟨_, rfl, rfl⟩
  exact ⟨s, hrun, hpc, delivered_in_order (Machine.reachable_of_run rfl hrun)⟩

/-- The second message is then in none of the three places, and `~Logger` was not called. -/
theorem not_delivered_in_order : ∃ s, (machine Unit 1).Reachable s ∧ s.destructor = .idle ∧
    s.delivered 0 ++ (s.rest 0 ++ s.buf) ≠ s.entered := by
  obtain ⟨s, hrun, hs⟩ : ∃ s, (machine Unit 1).run (initial 1) fatalRun = some s ∧
    s.destructor = .idle ∧ s.delivered 0 ++ (s.rest 0 ++ s.buf) = [⟨0, .FATAL, []⟩] ∧
      s.entered = [⟨0, .FATAL, []⟩, ⟨1, .INFO, []⟩] := ⟨_, rfl, rfl, rfl, rfl⟩
  refine ⟨s, Machine.reachable_of_run rfl hrun, hs.1, ?_⟩
  rw [hs.2.1, hs.2.2]
  decide

end Logger

end ServerDevLib.Logging
