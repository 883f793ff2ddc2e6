import Mathlib.Data.Finset.Card
import ServerDevLib.Foundation.Copies
import ServerDevLib.Logging.Delivery
import ServerDevLib.Logging.LogFile

/-!
# What the sinks make of the messages

The flush thread calls `Flush` of one sink after the other with the text of a
message. `SysLog` copies the text to the standard output, which all objects of
the class share; a `LogFile` writes it to its present file and prints the path
of every file it opens, and its exceptions end the process. The sinks are
registered before the first message.
-/

namespace ServerDevLib.Logging

open Transition Copies

universe u

inductive Sink
  | sysLog
  | logFile
  deriving DecidableEq

/-- What is written to `std::cout`: the text of a message, or the path of a file with a newline. -/
inductive Output
  | message (text : List UInt8)
  | opened (path : List UInt8)

def Output.text : Output → List UInt8
  | .message text => text
  | .opened _ => []

/-- The logger, what was written to `std::cout`, and the log file that sink `j` is, if it is one. -/
structure Sinks (K : Type u) where
  logger : Logger K
  stdout : List Output
  files : Nat → LogFiles

namespace Logger

variable {K : Type u}

/-- The call of a sink's `Flush` that an action makes. -/
def handed (s : Logger K) : Action K → Option (Nat × LogMessage)
  | .flush =>
    match s.flush with
    | .writing i j =>
      match s.backupBuf[i]? with
      | some msg => if j < s.destVec then some (j, msg) else none
      | none => none
    | _ => none
  | _ => none

/-- What an action does to `entered` and `delivered`. -/
inductive Passes (s : Logger K) (a : Action K) (s' : Logger K) : Prop
  | rests (none : s.handed a = none) (delivered : s'.delivered = s.delivered)
      (entered : s'.entered = s.entered)
  | enters {msg} (none : s.handed a = none) (delivered : s'.delivered = s.delivered)
      (entered : s'.entered = s.entered ++ [msg])
  | hands {i j msg} (pc : s.flush = .writing i j) (found : s.backupBuf[i]? = some msg)
      (some : s.handed a = some (j, msg))
      (delivered : s'.delivered = Function.update s.delivered j (s.delivered j ++ [msg]))
      (entered : s'.entered = s.entered)

theorem passes_of_flush {s s' : Logger K} (hmoved : FlushStep s s') : s.Passes .flush s' := by
  cases hmoved with
  | @deliver i j msg hpc hfound hsink =>
    refine .hands hpc hfound ?_ rfl rfl
    simp only [handed, hpc, hfound, if_pos hsink]
  | fatal hpc hfound hsinks | next hpc hfound hsinks =>
    refine .rests ?_ rfl rfl
    simp only [handed, hpc, hfound, if_neg (Nat.not_lt_of_le hsinks)]
  | endBatch hpc hdone =>
    refine .rests ?_ rfl rfl
    simp only [handed, hpc, List.getElem?_eq_none hdone]
  | enterLoop hpc | leaveLoop hpc | lock hpc | mode hpc | ready hpc | unready hpc | block hpc
  | retest hpc | timeOut hpc | stopReturn hpc | stopPass hpc | swap hpc | swapNone hpc | clear hpc
  | fatalStop hpc | fatalClearBuf hpc | fatalClearBackup hpc | fatalClearDest hpc | abort hpc =>
    refine .rests ?_ rfl rfl
    simp only [handed, hpc]

theorem passes_of_step [DecidableEq K] {sinks : Nat} {s s' : Logger K} {a : Action K}
    (hstep : (machine K sinks).step s a = some s') : s.Passes a s' := by
  cases step_cases hstep with
  | flush hmoved => exact passes_of_flush hmoved
  | push => exact .enters rfl rfl rfl
  | logWithWaiting | call | notifyNone | wake | destroy | setStop | join => exact .rests rfl rfl rfl
  | notifyOne | notifyAll =>
    obtain ⟨pc, hnotify, _⟩ := s.exists_notify
    have hdelivered : s.notify.delivered = s.delivered := by rw [hnotify]
    have hentered : s.notify.entered = s.entered := by rw [hnotify]
    exact .rests rfl hdelivered hentered

variable {n : Nat} {s : Logger K}

/-- The sinks have been given the same messages, except for one that some have already. -/
theorem InOrder.level (h : s.InOrder n) : ∃ full rest, s.entered = full ++ rest ∧
    ∀ d < n, s.delivered d = full ∨ s.delivered d = full ++ rest.take 1 := by
  cases hcleared : s.flush.cleared with
  | true =>
    obtain ⟨earlier, msg, _, ⟨rest, hentered⟩, hdelivered⟩ := h.ended hcleared
    exact ⟨earlier ++ [msg], rest, hentered.symm, fun d hd => .inl (hdelivered d hd)⟩
  | false =>
    obtain ⟨earlier, hentered, hdelivered⟩ := h.written hcleared
    have hsplit (i : Nat) : s.entered =
        (earlier ++ s.backupBuf.take i) ++ (s.backupBuf.drop i ++ s.buf) := by
      rw [hentered, List.append_assoc, ← List.append_assoc (List.take _ _), List.take_append_drop]
    by_cases hwriting : ∃ i j, s.flush = .writing i j
    · obtain ⟨i, j, hpc⟩ := hwriting
      refine ⟨_, _, hsplit i, fun d hd => ?_⟩
      rw [hdelivered d hd, hpc, FlushPc.position]
      split
      · cases hfound : s.backupBuf[i]? with
        | none =>
          have hlen := List.getElem?_eq_none_iff.mp hfound
          left
          rw [List.take_of_length_le hlen, List.take_of_length_le (Nat.le_succ_of_le hlen)]
        | some msg =>
          right
          obtain ⟨hlt, rfl⟩ := List.getElem?_eq_some_iff.mp hfound
          rw [List.drop_eq_getElem_cons hlt, List.take_add_one, hfound, List.append_assoc]
          rfl
      · exact .inl rfl
    · have hsame (d : Nat) : s.flush.position s.backupBuf.length d =
          s.flush.position s.backupBuf.length 0 := by
        cases hpc : s.flush with
        | writing i j => exact absurd ⟨i, j, hpc⟩ hwriting
        | _ => rfl
      refine ⟨_, _, hsplit (s.flush.position s.backupBuf.length 0), fun d hd => .inl ?_⟩
      rw [hdelivered d hd, hsame d]

theorem InOrder.length_delivered_le (h : s.InOrder n) {d : Nat} (hd : d < n) :
    (s.delivered d).length ≤ s.entered.length := by
  obtain ⟨full, rest, hentered, hlevel⟩ := h.level
  have htake : (rest.take 1).length ≤ rest.length := List.length_take_le' ..
  rw [hentered, List.length_append]
  cases hlevel d hd with
  | inl hfull =>
    rw [hfull]
    exact Nat.le_add_right ..
  | inr hmore =>
    rw [hmore, List.length_append]
    exact Nat.add_le_add_left htake _

theorem InOrder.ended_of_inFatal (h : s.InOrder n) (hfatal : s.flush.inFatal = true) :
    s.Ended n := by
  cases hcleared : s.flush.cleared with
  | true => exact h.ended hcleared
  | false =>
    cases hpc : s.flush with
    | fatal i stage => exact h.ended_of_fatal hpc hcleared
    | aborted =>
      rw [hpc] at hcleared
      cases hcleared
    | _ =>
      rw [hpc] at hfatal
      cases hfatal

/-- While sink `j` is given a message, that is the next one for it, and no other sink is ahead. -/
theorem InOrder.next (h : s.InOrder n) {i j : Nat} {msg : LogMessage}
    (hpc : s.flush = .writing i j) (hfound : s.backupBuf[i]? = some msg) :
    ∃ xs ys, s.entered = xs ++ msg :: ys ∧
      ∀ d < n, (s.delivered d).length = xs.length + if d < j then 1 else 0 := by
  obtain ⟨earlier, hentered, hdelivered⟩ := h.written (by rw [hpc]; rfl)
  obtain ⟨hlt, rfl⟩ := List.getElem?_eq_some_iff.mp hfound
  refine ⟨earlier ++ s.backupBuf.take i, s.backupBuf.drop (i + 1) ++ s.buf, ?_, fun d hd => ?_⟩
  · rw [hentered, List.append_assoc, ← List.cons_append, ← List.drop_eq_getElem_cons hlt,
      ← List.append_assoc (List.take _ _), List.take_append_drop]
  · rw [hdelivered d hd, hpc, FlushPc.position]
    split
    · simp only [List.length_append, List.length_take]
      omega
    · simp only [List.length_append, List.length_take]
      omega

end Logger

namespace LogFiles

variable {e : Environment} {c : LogFileConfig} {s s' : LogFiles}

theorem flushed_step {str : List UInt8} {now : Int} {isOpen fail : Bool}
    (hstep : (machine e c).step s (.flush str now isOpen fail) = some s') :
    s'.flushed = s.flushed ++ [str] := by
  cases step_cases hstep with
  | rotated | appended => rfl

/-- What was written to the files, opening after opening. -/
def recorded (s : LogFiles) : List (List UInt8) := s.openings.flatMap Opening.records

/-- What a call prints that has left the file as `s'`. -/
def printed (s s' : LogFiles) : List Output :=
  (s'.openings.drop s.openings.length).map fun o => .opened (o.path ++ [10])

theorem text_printed (s s' : LogFiles) : (s.printed s').flatMap Output.text = [] := by
  rw [printed, List.flatMap_map]
  exact List.flatMap_eq_nil_iff.mpr fun _ _ => rfl

end LogFiles

namespace Sinks

/-- An action of the logger, and what a log file meets if it is written to. -/
structure Event (K : Type u) where
  action : Logger.Action K
  now : Int
  isOpen : Bool
  fail : Bool

variable {K : Type u}

/-- The texts of messages on the standard output. -/
def shown (s : Sinks K) : List UInt8 := s.stdout.flatMap Output.text

/-- `Flush` of sink `j`. -/
def give (e : Environment) (c : LogFileConfig) (sinks : List Sink) (s : Sinks K) (event : Event K)
    (j : Nat) (msg : LogMessage) : Option (Sinks K) :=
  match sinks[j]? with
  | some .sysLog => some { s with stdout := s.stdout ++ [.message msg.text] }
  | some .logFile =>
    (LogFiles.step e c (s.files j) (.flush msg.text event.now event.isOpen event.fail)).map
      fun file => { s with
        stdout := s.stdout ++ (s.files j).printed file
        files := Function.update s.files j file }
  | none => none

variable [DecidableEq K]

def step (e : Environment) (c : LogFileConfig) (sinks : List Sink) (s : Sinks K)
    (event : Event K) : Option (Sinks K) :=
  ((Logger.machine K sinks.length).step s.logger event.action).bind fun logger =>
    match s.logger.handed event.action with
    | none => some { s with logger := logger }
    | some (j, msg) => { s with logger := logger }.give e c sinks event j msg

def machine (K : Type u) [DecidableEq K] (e : Environment) (c : LogFileConfig)
    (sinks : List Sink) : Machine (Sinks K) (Event K) where
  init s := s.logger = Logger.initial sinks.length ∧ s.shown = [] ∧
    ∀ j, sinks[j]? = some .logFile → (LogFiles.machine e c).init (s.files j)
  step := step e c sinks

inductive Step (e : Environment) (c : LogFileConfig) (sinks : List Sink) (s : Sinks K)
    (event : Event K) : Sinks K → Prop
  | logger {logger} (moved : (Logger.machine K sinks.length).step s.logger event.action = some logger)
      (none : s.logger.handed event.action = none) :
      Step e c sinks s event { s with logger := logger }
  | sysLog {j msg logger}
      (moved : (Logger.machine K sinks.length).step s.logger event.action = some logger)
      (handed : s.logger.handed event.action = some (j, msg)) (sink : sinks[j]? = some .sysLog) :
      Step e c sinks s event { s with logger := logger, stdout := s.stdout ++ [.message msg.text] }
  | logFile {j msg logger file}
      (moved : (Logger.machine K sinks.length).step s.logger event.action = some logger)
      (handed : s.logger.handed event.action = some (j, msg)) (sink : sinks[j]? = some .logFile)
      (flushed : (LogFiles.machine e c).step (s.files j)
        (.flush msg.text event.now event.isOpen event.fail) = some file) :
      Step e c sinks s event { s with
        logger := logger
        stdout := s.stdout ++ (s.files j).printed file
        files := Function.update s.files j file }

variable {e : Environment} {c : LogFileConfig} {sinks : List Sink} {s s' : Sinks K}
  {event : Event K}

theorem step_cases (hstep : (machine K e c sinks).step s event = some s') :
    Step e c sinks s event s' := by
  obtain ⟨logger, hmoved, hrest⟩ := Option.bind_eq_some_iff.mp hstep
  split at hrest
  · rename_i hnone
    cases hrest
    exact .logger hmoved hnone
  · rename_i j msg hhanded
    simp only [give] at hrest
    split at hrest
    · rename_i hsink
      cases hrest
      exact .sysLog hmoved hhanded hsink
    · rename_i hsink
      obtain ⟨file, hfile, rfl⟩ := Option.map_eq_some_iff.mp hrest
      exact .logFile hmoved hhanded hsink hfile
    · cases hrest

theorem logger_reachable (h : (machine K e c sinks).Reachable s) :
    (Logger.machine K sinks.length).Reachable s.logger := by
  refine Machine.ReachableUnder.project (fun s : Sinks K => s.logger) ?_ ?_ h
  · exact fun s hinit => hinit.1
  · intro s event s' _ hstep
    cases step_cases hstep with
    | logger hmoved | sysLog hmoved | logFile hmoved => exact .inr ⟨_, trivial, hmoved⟩

/-- The sinks that write to the standard output. -/
def sysLogs (sinks : List Sink) : Finset Nat :=
  (Finset.range sinks.length).filter fun d => sinks[d]? = some .sysLog

/-- How many of them were given message `i`. -/
def given (sinks : List Sink) (s : Logger K) (i : Nat) : Nat :=
  ((sysLogs sinks).filter fun d => i < (s.delivered d).length).card

/-- The output agrees with what the logger has handed over. -/
structure Fed (sinks : List Sink) (s : Sinks K) : Prop where
  shown : s.shown = written LogMessage.text (given sinks s.logger) s.logger.entered
  files : ∀ j, sinks[j]? = some .logFile → (s.files j).Exact ∧
    (s.files j).flushed = (s.logger.delivered j).map LogMessage.text

section Given

omit [DecidableEq K]

variable {l l' : Logger K}

theorem mem_sysLogs {d : Nat} : d ∈ sysLogs sinks ↔ sinks[d]? = some .sysLog := by
  rw [sysLogs, Finset.mem_filter, Finset.mem_range]
  constructor
  · exact fun h => h.2
  · intro h
    obtain ⟨hlt, _⟩ := List.getElem?_eq_some_iff.mp h
    exact ⟨hlt, h⟩

theorem lt_of_mem_sysLogs {d : Nat} (h : d ∈ sysLogs sinks) : d < sinks.length := by
  obtain ⟨hlt, _⟩ := List.getElem?_eq_some_iff.mp (mem_sysLogs.mp h)
  exact hlt

theorem given_congr (h : ∀ d ∈ sysLogs sinks, l'.delivered d = l.delivered d) (i : Nat) :
    given sinks l' i = given sinks l i := by
  refine congrArg Finset.card (Finset.filter_congr fun d hd => ?_)
  rw [h d hd]

theorem given_eq_zero {i : Nat} (h : ∀ d ∈ sysLogs sinks, (l.delivered d).length ≤ i) :
    given sinks l i = 0 := by
  rw [given, Finset.card_eq_zero, Finset.filter_eq_empty_iff]
  exact fun d hd => Nat.not_lt_of_le (h d hd)

theorem given_eq_card {i : Nat} (h : ∀ d ∈ sysLogs sinks, i < (l.delivered d).length) :
    given sinks l i = (sysLogs sinks).card :=
  congrArg Finset.card (Finset.filter_true_of_mem h)

theorem given_le_card (l : Logger K) (i : Nat) : given sinks l i ≤ (sysLogs sinks).card :=
  Finset.card_filter_le ..

/-- One more message for one of them. -/
theorem given_update {j : Nat} {msg : LogMessage} (hj : j ∈ sysLogs sinks)
    (hmore : l'.delivered = Function.update l.delivered j (l.delivered j ++ [msg])) :
    given sinks l' (l.delivered j).length = given sinks l (l.delivered j).length + 1 ∧
      ∀ i, i ≠ (l.delivered j).length → given sinks l' i = given sinks l i := by
  have hlength (d : Nat) : (l'.delivered d).length =
      (l.delivered d).length + if d = j then 1 else 0 := by
    rw [hmore]
    split
    · rename_i heq
      rw [heq, Function.update_self, List.length_append]
      rfl
    · rename_i hne
      rw [Function.update_of_ne hne]
      rfl
  constructor
  · have hinsert : (sysLogs sinks).filter (fun d => (l.delivered j).length < (l'.delivered d).length)
        = insert j ((sysLogs sinks).filter fun d =>
          (l.delivered j).length < (l.delivered d).length) := by
      ext d
      rw [Finset.mem_insert, Finset.mem_filter, Finset.mem_filter, hlength d]
      by_cases hd : d = j
      · simp [hd, hj]
      · simp [hd]
    rw [given, hinsert, Finset.card_insert_of_notMem]
    · rfl
    · simp
  · intro i hi
    refine congrArg Finset.card (Finset.filter_congr fun d _ => ?_)
    rw [hlength d]
    split
    · rename_i heq
      rw [heq]
      omega
    · exact Iff.rfl

end Given

omit [DecidableEq K] in
theorem Fed.sysLog (h : s.Fed sinks) (horder : s.logger.InOrder sinks.length) {i j : Nat}
    {msg : LogMessage} {logger : Logger K} (hpc : s.logger.flush = .writing i j)
    (hfound : s.logger.backupBuf[i]? = some msg) (hsink : sinks[j]? = some .sysLog)
    (hdelivered : logger.delivered =
      Function.update s.logger.delivered j (s.logger.delivered j ++ [msg]))
    (hentered : logger.entered = s.logger.entered) :
    ({ s with logger := logger, stdout := s.stdout ++ [.message msg.text] } : Sinks K).Fed sinks where
  shown := by
    obtain ⟨xs, ys, hsplit, hlength⟩ := horder.next hpc hfound
    have hj : j ∈ sysLogs sinks := mem_sysLogs.mpr hsink
    have hlen : (s.logger.delivered j).length = xs.length := by
      rw [hlength j (lt_of_mem_sysLogs hj), if_neg (Nat.lt_irrefl j), Nat.add_zero]
    obtain ⟨hmore, hsame⟩ := given_update hj hdelivered
    rw [hlen] at hmore hsame
    have hshown : s.shown ++ msg.text =
        (s.stdout ++ [Output.message msg.text]).flatMap Output.text := by
      rw [List.flatMap_append, List.flatMap_singleton]
      rfl
    change (s.stdout ++ [Output.message msg.text]).flatMap Output.text =
      written LogMessage.text (given sinks logger) logger.entered
    rw [← hshown, hentered, hsplit, h.shown, hsplit]
    refine (written_succ (fun i' hi' => given_eq_zero fun d hd => ?_) hsame hmore).symm
    have hd := hlength d (lt_of_mem_sysLogs hd)
    split at hd <;> omega
  files j' hj' := by
    have hne : j' ≠ j := by
      rintro rfl
      rw [hsink] at hj'
      cases hj'
    obtain ⟨hexact, hflushed⟩ := h.files j' hj'
    refine ⟨hexact, ?_⟩
    rw [hdelivered, Function.update_of_ne hne]
    exact hflushed

omit [DecidableEq K] in
theorem Fed.logFile (h : s.Fed sinks) {j : Nat} {msg : LogMessage} {logger : Logger K}
    {file : LogFiles} (hsink : sinks[j]? = some .logFile)
    (hdelivered : logger.delivered =
      Function.update s.logger.delivered j (s.logger.delivered j ++ [msg]))
    (hentered : logger.entered = s.logger.entered)
    (hfile : (LogFiles.machine e c).step (s.files j)
      (.flush msg.text event.now event.isOpen event.fail) = some file) :
    ({ s with
        logger := logger
        stdout := s.stdout ++ (s.files j).printed file
        files := Function.update s.files j file } : Sinks K).Fed sinks where
  shown := by
    change (s.stdout ++ (s.files j).printed file).flatMap Output.text =
      written LogMessage.text (given sinks logger) logger.entered
    rw [List.flatMap_append, LogFiles.text_printed, List.append_nil, hentered]
    refine h.shown.trans ?_
    refine written_congr fun i _ => (given_congr (fun d hd => ?_) i).symm
    have hne : d ≠ j := by
      rintro rfl
      rw [mem_sysLogs, hsink] at hd
      cases hd
    rw [hdelivered, Function.update_of_ne hne]
  files j' hj' := by
    obtain ⟨hexact, hflushed⟩ := h.files j' hj'
    change (Function.update s.files j file j').Exact ∧ (Function.update s.files j file j').flushed =
      (logger.delivered j').map LogMessage.text
    rw [hdelivered]
    rcases eq_or_ne j' j with rfl | hne
    · rw [Function.update_self, Function.update_self, LogFiles.flushed_step hfile, hflushed,
        List.map_append]
      exact ⟨LogFiles.exact_step hexact hfile, rfl⟩
    · rw [Function.update_of_ne hne, Function.update_of_ne hne]
      exact ⟨hexact, hflushed⟩

theorem fed_of_reachable (h : (machine K e c sinks).Reachable s) : s.Fed sinks := by
  have horder (s : Sinks K) (hs : (machine K e c sinks).Reachable s) :
      s.logger.InOrder sinks.length := Logger.inOrder_of_reachable (logger_reachable hs)
  refine h.invariant_on horder ?_ ?_
  · rintro s ⟨hlogger, hshown, hfiles⟩
    constructor
    · rw [hshown, hlogger]
      rfl
    · intro j hj
      obtain ⟨chars, now, file, _, hfile, heq⟩ := hfiles j hj
      rw [heq, hlogger]
      exact ⟨rfl, rfl⟩
  · intro s event s' horder hfed _ hstep
    cases step_cases hstep with
    | @logger logger hmoved hnone =>
      cases Logger.passes_of_step hmoved with
      | rests _ hdelivered hentered =>
        have hsame : given sinks logger = given sinks s.logger :=
          funext (given_congr fun d _ => by rw [hdelivered])
        constructor
        · change s.shown = _
          rw [hfed.shown, hsame, hentered]
        · intro j hj
          rw [hdelivered]
          exact hfed.files j hj
      | @enters msg _ hdelivered hentered =>
        have hsame : given sinks logger = given sinks s.logger :=
          funext (given_congr fun d _ => by rw [hdelivered])
        constructor
        · change s.shown = _
          rw [hfed.shown, hsame, hentered]
          refine (written_concat (given_eq_zero fun d hd => ?_)).symm
          exact horder.length_delivered_le (lt_of_mem_sysLogs hd)
        · intro j hj
          rw [hdelivered]
          exact hfed.files j hj
      | hands _ _ hsome =>
        rw [hnone] at hsome
        cases hsome
    | @sysLog j msg logger hmoved hhanded hsink =>
      cases Logger.passes_of_step hmoved with
      | rests hnone | enters hnone =>
        rw [hhanded] at hnone
        cases hnone
      | hands hpc hfound hsome hdelivered hentered =>
        cases hhanded.symm.trans hsome
        exact hfed.sysLog horder hpc hfound hsink hdelivered hentered
    | @logFile j msg logger file hmoved hhanded hsink hfile =>
      cases Logger.passes_of_step hmoved with
      | rests hnone | enters hnone =>
        rw [hhanded] at hnone
        cases hnone
      | hands _ _ hsome hdelivered hentered =>
        cases hhanded.symm.trans hsome
        exact hfed.logFile hsink hdelivered hentered hfile

/-- The sinks that write to the standard output have each shown the messages in `full`, and some
of them `next`; the files of every other sink have the messages in `full`, and perhaps `next`. -/
structure Shows (sinks : List Sink) (s : Sinks K) (full next : List LogMessage) : Prop where
  shown : ∃ p ≤ (sysLogs sinks).card, s.shown =
    full.flatMap (copies LogMessage.text (sysLogs sinks).card) ++
      next.flatMap (copies LogMessage.text p)
  files : ∀ j, sinks[j]? = some .logFile → (s.files j).recorded = full.map LogMessage.text ∨
    (s.files j).recorded = (full ++ next).map LogMessage.text

omit [DecidableEq K] in
theorem Fed.shows (h : s.Fed sinks) {full rest : List LogMessage}
    (hentered : s.logger.entered = full ++ rest)
    (hlevel : ∀ d < sinks.length,
      s.logger.delivered d = full ∨ s.logger.delivered d = full ++ rest.take 1) :
    s.Shows sinks full (rest.take 1) where
  shown := by
    have hlength (d : Nat) (hd : d ∈ sysLogs sinks) :
        full.length ≤ (s.logger.delivered d).length ∧
          (s.logger.delivered d).length ≤ full.length + 1 := by
      have htake : (rest.take 1).length ≤ 1 := List.length_take_le ..
      cases hlevel d (lt_of_mem_sysLogs hd) with
      | inl hfull =>
        rw [hfull]
        omega
      | inr hmore =>
        rw [hmore, List.length_append]
        omega
    refine ⟨given sinks s.logger full.length, given_le_card .., ?_⟩
    rw [h.shown, hentered]
    refine written_levels (fun i hi => given_eq_card fun d hd => ?_) rfl
      fun i hi => given_eq_zero fun d hd => ?_
    · exact Nat.lt_of_lt_of_le hi (hlength d hd).1
    · exact (hlength d hd).2.trans hi
  files j hj := by
    obtain ⟨hexact, hflushed⟩ := h.files j hj
    obtain ⟨hlt, _⟩ := List.getElem?_eq_some_iff.mp hj
    have hrecorded : (s.files j).recorded = (s.logger.delivered j).map LogMessage.text :=
      hexact.trans hflushed
    rw [hrecorded]
    cases hlevel j hlt with
    | inl hfull => exact .inl (by rw [hfull])
    | inr hmore => exact .inr (by rw [hmore])

omit [DecidableEq K] in
/-- Where no sink is ahead of another one, nothing is half shown. -/
theorem Fed.shows_all (h : s.Fed sinks) {full : List LogMessage}
    (hentered : full <+: s.logger.entered)
    (hlevel : ∀ d < sinks.length, s.logger.delivered d = full) : s.Shows sinks full [] where
  shown := by
    obtain ⟨rest, hentered⟩ := hentered
    refine ⟨0, Nat.zero_le _, ?_⟩
    rw [h.shown, ← hentered, written_levels (fun i hi => given_eq_card fun d hd => ?_)
      (given_eq_zero fun d hd => ?_) fun i hi => given_eq_zero fun d hd => ?_]
    · refine congrArg _ (List.flatMap_eq_nil_iff.mpr fun x _ => rfl)
    · rw [hlevel d (lt_of_mem_sysLogs hd)]
      exact hi
    · rw [hlevel d (lt_of_mem_sysLogs hd)]
    · rw [hlevel d (lt_of_mem_sysLogs hd)]
      exact hi.le
  files j hj := by
    obtain ⟨hexact, hflushed⟩ := h.files j hj
    obtain ⟨hlt, _⟩ := List.getElem?_eq_some_iff.mp hj
    have hrecorded : (s.files j).recorded = (s.logger.delivered j).map LogMessage.text :=
      hexact.trans hflushed
    exact .inl (by rw [hrecorded, hlevel j hlt])

/-- The texts on the standard output and in the log files are those of the first messages that
have entered `_buf`, in that order, and for at most one more message some sinks are ahead. Between
two batches they are those of all messages that are not in `_buf`, and in the branch for a `FATAL`
message, of all up to that one. -/
theorem reaches_sinks (h : (machine K e c sinks).Reachable s) :
    (∃ full rest, s.logger.entered = full ++ rest ∧ s.Shows sinks full (rest.take 1)) ∧
    (s.logger.flush.outside = true →
      ∃ full, s.logger.entered = full ++ s.logger.buf ∧ s.Shows sinks full []) ∧
    (s.logger.flush.inFatal = true → ∃ earlier msg, msg.level = .FATAL ∧
      earlier ++ [msg] <+: s.logger.entered ∧ s.Shows sinks (earlier ++ [msg]) []) := by
  have hfed := fed_of_reachable h
  have horder := Logger.inOrder_of_reachable (logger_reachable h)
  refine ⟨?_, fun houtside => ?_, fun hfatal => ?_⟩
  · obtain ⟨full, rest, hentered, hlevel⟩ := horder.level
    exact ⟨full, rest, hentered, hfed.shows hentered hlevel⟩
  · obtain ⟨full, hentered, hdelivered⟩ := horder.written (FlushPc.cleared_of_outside houtside)
    rw [horder.empty houtside, List.nil_append] at hentered
    refine ⟨full, hentered, hfed.shows_all ⟨_, hentered.symm⟩ fun d hd => ?_⟩
    rw [hdelivered d hd, horder.empty houtside, List.take_nil, List.append_nil]
  · obtain ⟨earlier, msg, hlevel, hprefix, hdelivered⟩ := horder.ended_of_inFatal hfatal
    exact ⟨earlier, msg, hlevel, hprefix, hfed.shows_all hprefix hdelivered⟩

/-- The second of two sinks that write to the standard output was not given the message yet. -/
def oneOfTwo : List (Event Unit) :=
  let actions : List (Logger.Action Unit) :=
    [.call () .INFO [72, 105], .push (), .notifyOne ()] ++ List.replicate 8 .flush
  actions.map fun a => ⟨a, 0, true, false⟩

def twoSysLogs : List Sink := [.sysLog, .logFile, .sysLog]

def sampleSinks : Sinks Unit := ⟨.initial 3, [], fun _ => LogFiles.sampleFiles⟩

theorem reaches_sinks_oneOfTwo : ∃ s,
    (machine Unit LogFiles.sampleEnvironment LogFiles.sampleConfig twoSysLogs).run sampleSinks
      oneOfTwo = some s ∧ s.shown = [72, 105] ∧ (s.files 1).recorded = [[72, 105]] ∧
    (∃ full rest, s.logger.entered = full ++ rest ∧ s.Shows twoSysLogs full (rest.take 1)) ∧
    (s.logger.flush.outside = true →
      ∃ full, s.logger.entered = full ++ s.logger.buf ∧ s.Shows twoSysLogs full []) ∧
    (s.logger.flush.inFatal = true → ∃ earlier msg, msg.level = .FATAL ∧
      earlier ++ [msg] <+: s.logger.entered ∧ s.Shows twoSysLogs (earlier ++ [msg]) []) := by
  obtain ⟨s, hrun, hshown, hfile⟩ : ∃ s,
      (machine Unit LogFiles.sampleEnvironment LogFiles.sampleConfig twoSysLogs).run sampleSinks
        oneOfTwo = some s ∧ s.shown = [72, 105] ∧ (s.files 1).recorded = [[72, 105]] :=
    ⟨_, rfl, rfl, rfl⟩
  exact ⟨s, hrun, hshown, hfile, reaches_sinks (Machine.reachable_of_run
    ⟨rfl, rfl, fun _ _ => LogFiles.sampleFiles_init⟩ hrun)⟩

end Sinks

end ServerDevLib.Logging
