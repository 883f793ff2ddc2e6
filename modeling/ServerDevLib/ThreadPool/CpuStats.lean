import Mathlib.Algebra.Order.BigOperators.Group.List
import Mathlib.Algebra.Order.Group.Nat
import Mathlib.Data.List.OfFn
import ServerDevLib.Foundation.Extraction
import ServerDevLib.ThreadPool.Scaling

/-!
# Reading the times of the processor

`GetCPUStats` has its stream in a static variable and closes it behind the
first line, so that every later call, of whatever pool, gets an empty line. Its
local variables are not initialised, and an extraction that fails leaves them
so; what they have then is given by the environment. `Init` passes one member
for both results, and `Monitor` does not get to the call in a pool that may
have more workers than its minimum.
-/

namespace ServerDevLib.ThreadPool

open Extraction Transition

/-- `file` is what there is to read in `/proc/stat`, until it is closed. -/
structure CpuStats (P : Type) where
  file : Option (List UInt8)
  prevIdleTime : P → Int
  prevTotalTime : P → Int

namespace CpuStats

/-- The constructor of a pool, and a call of its `Monitor`. -/
inductive Action (P : Type)
  | init (p : P) (locals : Fin 8 → Int)
  | monitor (p : P) (locals : Fin 8 → Int)

variable {P : Type}

def Action.locals : Action P → Fin 8 → Int
  | .init _ locals | .monitor _ locals => locals

/-- The idle and the total time. -/
def times : List Int → Int × Int
  | [user, nice, system, idle, iowait, irq, softirq, steal] =>
    (idle + iowait, user + nice + system + idle + iowait + irq + softirq + steal)
  | _ => (0, 0)

def getline (file : Option (List UInt8)) : List UInt8 :=
  file.elim [] fun content => content.takeWhile fun c => c != 10

def getCPUStats (s : CpuStats P) (locals : Fin 8 → Int) : Int × Int :=
  let ss := (Stream.ofText (getline s.file)).extractWord.2
  times (ss.extractLongs (List.ofFn locals)).1

/-- `GetCPUStats` is called. -/
def Action.reads (config : P → ThreadPoolConfig) : Action P → Bool
  | .init _ _ => true
  | .monitor p _ => !decide ((config p).minCoreThread < (config p).maxThread)

variable [DecidableEq P]

def step (config : P → ThreadPoolConfig) (s : CpuStats P) : Action P → Option (CpuStats P)
  | .init p locals =>
    let idle := Function.update s.prevIdleTime p (s.getCPUStats locals).1
    some { s with
      file := none
      prevIdleTime := Function.update idle p (s.getCPUStats locals).2 }
  | .monitor p locals =>
    if (config p).minCoreThread < (config p).maxThread then some s
    else some {
      file := none
      prevIdleTime := Function.update s.prevIdleTime p (s.getCPUStats locals).1
      prevTotalTime := Function.update s.prevTotalTime p (s.getCPUStats locals).2 }

def initial (content : List UInt8) : CpuStats P := ⟨some content, fun _ => 0, fun _ => 0⟩

def machine (config : P → ThreadPoolConfig) (content : List UInt8) :
    Machine (CpuStats P) (Action P) where
  init s := s = initial content
  step := step config

omit [DecidableEq P] in
/-- What each call of `GetCPUStats` gives. -/
def reading (config : P → ThreadPoolConfig) (s : CpuStats P) (a : Action P) : Option (Int × Int) :=
  if a.reads config then some (s.getCPUStats a.locals) else none

/-- A first line of a word and eight numbers, with blanks in front of each; the total time is one
that a `long` can have. -/
structure FirstLine (content : List UInt8) (fields : List (List UInt8 × Nat)) : Prop where
  line : ∃ word tail rest, content = word ++ (Stream.fieldsText fields ++ tail) ++ 10 :: rest ∧
    word ≠ [] ∧ (∀ c ∈ word, isSpace c = false) ∧ Stops tail ∧ 10 ∉ tail
  eight : fields.length = 8
  gaps : ∀ f ∈ fields, f.1 ≠ [] ∧ ∀ c ∈ f.1, isSpace c = true ∧ c ≠ 10
  fits : (fields.map Prod.snd).sum < 2 ^ 63

theorem FirstLine.value_lt {content : List UInt8} {fields : List (List UInt8 × Nat)}
    (h : FirstLine content fields) {f : List UInt8 × Nat} (hf : f ∈ fields) : f.2 < 2 ^ 63 := by
  have hle := List.single_le_sum (fun n _ => Nat.zero_le n) f.2 (List.mem_map_of_mem hf)
  exact Nat.lt_of_le_of_lt hle h.fits

omit [DecidableEq P] in
theorem getCPUStats_of_firstLine {content : List UInt8} {fields : List (List UInt8 × Nat)}
    (h : FirstLine content fields) {s : CpuStats P} (hfile : s.file = some content)
    (locals : Fin 8 → Int) : s.getCPUStats locals = times (fields.map fun f => (f.2 : Int)) := by
  obtain ⟨word, tail, rest, rfl, hne, hword, hstops, hnewline⟩ := h.line
  have hgaps : ∀ f ∈ fields, f.1 ≠ [] ∧ ∀ c ∈ f.1, isSpace c = true :=
    fun f hf => ⟨(h.gaps f hf).1, fun c hc => ((h.gaps f hf).2 c hc).1⟩
  have hline : getline s.file = word ++ (Stream.fieldsText fields ++ tail) := by
    have hkept : ∀ c ∈ word ++ (Stream.fieldsText fields ++ tail), (c != 10) = true := by
      intro c hc
      rw [bne_iff_ne]
      rintro rfl
      rw [List.mem_append, List.mem_append, Stream.fieldsText, List.mem_flatMap] at hc
      rcases hc with hc | ⟨f, hf, hc⟩ | hc
      · cases hword 10 hc
      · cases List.mem_append.mp hc with
        | inl hgap => exact ((h.gaps f hf).2 10 hgap).2 rfl
        | inr htext => cases isDigit_of_mem_text htext
      · exact hnewline hc
    rw [getline, hfile]
    refine (takeWhile_append_of_stops hkept fun c hc => ?_).1
    cases hc
    rfl
  have hblank : ∀ c, (Stream.fieldsText fields ++ tail).head? = some c → isSpace c = true := by
    intro c hc
    cases hfields : fields with
    | nil =>
      have height := h.eight
      rw [hfields] at height
      cases height
    | cons f others =>
      have hf : f ∈ fields := by
        rw [hfields]
        exact List.mem_cons_self ..
      obtain ⟨d, gap, hgap⟩ := List.exists_cons_of_ne_nil (hgaps f hf).1
      rw [hfields, Stream.fieldsText, List.flatMap_cons, hgap] at hc
      cases hc
      exact (hgaps f hf).2 c (by rw [hgap]; exact List.mem_cons_self ..)
  have hextract := Stream.extractWord_append (List.forall_mem_nil _) hne hword hblank
  rw [List.nil_append] at hextract
  rw [getCPUStats, hline, hextract]
  refine congrArg times (Stream.extractLongs_fields ?_ hgaps (fun _ => h.value_lt) hstops)
  rw [List.length_ofFn, h.eight]

omit [DecidableEq P] in
/-- A call behind the first one gives what its variables happen to have. -/
theorem getCPUStats_of_closed {s : CpuStats P} (hfile : s.file = none) (locals : Fin 8 → Int) :
    s.getCPUStats locals = times (List.ofFn locals) := by
  rw [getCPUStats, getline, hfile]
  exact congrArg times (Stream.extractLongs_of_fail rfl _)

variable {config : P → ThreadPoolConfig} {content : List UInt8} {s s' : CpuStats P}

theorem closed_step {a : Action P} (hfile : s.file = none)
    (hstep : (machine config content).step s a = some s') : s'.file = none := by
  cases a with
  | init p locals =>
    cases hstep
    rfl
  | monitor p locals =>
    simp only [machine, step] at hstep
    split at hstep
    · cases hstep
      exact hfile
    · cases hstep
      rfl

theorem outputs_of_closed (hfile : s.file = none) {as : List (Action P)}
    (hrun : (machine config content).run s as = some s') :
    (machine config content).outputs (reading config) s as =
      (as.filter (Action.reads config)).map fun a => times (List.ofFn a.locals) := by
  induction as generalizing s with
  | nil => rfl
  | cons a as ih =>
    obtain ⟨t, ht, hrest⟩ := Option.bind_eq_some_iff.mp hrun
    have htail := ih (closed_step hfile ht) hrest
    rw [Machine.outputs, ht, reading, getCPUStats_of_closed hfile]
    cases hreads : a.reads config with
    | true =>
      rw [List.filter_cons_of_pos hreads]
      exact congrArg _ htail
    | false =>
      rw [List.filter_cons_of_neg (by rw [hreads]; exact Bool.false_ne_true)]
      exact htail

/-- The first call of the process gives the times of the first line, however it is spaced, and all
others, of whatever pool, what their own variables had; behind its constructor the first pool has
the total time in the member for the idle one. -/
theorem reads_first_line {fields : List (List UInt8 × Nat)} (h : FirstLine content fields) {p : P}
    {locals : Fin 8 → Int} {as : List (Action P)}
    (hrun : (machine config content).run (initial content) (.init p locals :: as) = some s) :
    (machine config content).outputs (reading config) (initial content) (.init p locals :: as) =
      times (fields.map fun f => (f.2 : Int)) ::
        (as.filter (Action.reads config)).map (fun a => times (List.ofFn a.locals)) ∧
    ∃ t, (machine config content).step (initial content) (.init p locals) = some t ∧
      t.prevIdleTime p = (times (fields.map fun f => (f.2 : Int))).2 ∧ t.prevTotalTime p = 0 := by
  obtain ⟨t, ht, hrest⟩ := Option.bind_eq_some_iff.mp hrun
  have hfirst : (initial content).getCPUStats locals = times (fields.map fun f => (f.2 : Int)) :=
    getCPUStats_of_firstLine h (s := (initial content : CpuStats P)) rfl locals
  constructor
  · have hreading : reading config (initial content) (.init p locals) =
        some (times (fields.map fun f => (f.2 : Int))) := congrArg some hfirst
    have hclosed : t.file = none := by
      cases ht
      rfl
    rw [Machine.outputs, ht, hreading]
    exact congrArg _ (outputs_of_closed hclosed hrest)
  · refine ⟨t, ht, ?_⟩
    cases ht
    refine ⟨?_, rfl⟩
    rw [← hfirst]
    exact Function.update_self ..

def sampleFields : List (List UInt8 × Nat) :=
  [([32, 32], 410), ([32], 0), ([32], 25), ([32], 9000), ([32], 70), ([32], 0), ([32], 3), ([32], 1)]

/-- Two more numbers come behind the eight, and a second line. -/
def sampleContent : List UInt8 :=
  [99, 112, 117] ++ (Stream.fieldsText sampleFields ++ [32, 48, 32, 48]) ++ 10 :: [99, 112, 117, 48]

theorem sampleContent_firstLine : FirstLine sampleContent sampleFields where
  line := ⟨[99, 112, 117], [32, 48, 32, 48], [99, 112, 117, 48], rfl, by decide, by decide +kernel,
    fun c hc => by cases hc; decide, by decide⟩
  eight := rfl
  gaps := by decide +kernel
  fits := by decide

/-- One pool of a fixed size and one that may grow. -/
def sampleConfig (growing : Bool) : ThreadPoolConfig := ⟨4, if growing then 8 else 4, true, 30000, 3⟩

/-- The constructors of both pools, and a call of each `Monitor`. -/
theorem reads_first_line_twice :
    (machine sampleConfig sampleContent).outputs (reading sampleConfig) (initial sampleContent)
        [.init false fun _ => 5, .init true fun _ => 6, .monitor true fun _ => 7,
          .monitor false fun _ => 8] =
      [(9070, 9509), (12, 48), (16, 64)] := by
  obtain ⟨s, hrun⟩ : ∃ s, (machine sampleConfig sampleContent).run (initial sampleContent)
      [.init false fun _ => 5, .init true fun _ => 6, .monitor true fun _ => 7,
        .monitor false fun _ => 8] = some s := ⟨_, rfl⟩
  exact (reads_first_line sampleContent_firstLine hrun).1

end CpuStats

end ServerDevLib.ThreadPool
