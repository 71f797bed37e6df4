import StackLang.Command.Respond
import StackLang.Proofs.Parse.Faults
import StackLang.Proofs.Program.Pipeline
import StackLang.Proofs.Source.Decoding
import StackLang.Proofs.Token.Classify

-- How a file can fail to load, whatever its bytes are. All failures are
-- diagnostics but one: a numeral with more digits than can be read.

namespace StackLang

variable {α : Type}

-- What can be said of a file that does not load: that it cannot be read, or that it
-- cannot be parsed.
def Cause.OfLoad (file : Path) (cause : Cause) : Prop :=
  (∃ reason, cause = .unreadable file reason) ∨ cause.stage = "Parsing"

-- The runs of a file, up to where its bytes are no text.
def fileRuns (given : String) (bytes : List UInt8) : List Found :=
  runsBelow (.ofText given) 0 (Lines.ofBytes bytes).lines

-- A numeral of `count` digits, more than can be read, and nothing before it that is
-- refused.
def Overlong (runs : List Found) (count : Nat) : Prop :=
  ∃ before run more tokens built digits, runs = before ++ run :: more ∧
    List.Forall₂ Found.Becomes before tokens ∧ Builder.initial.feedAll tokens = .ok built ∧
    Lexeme.digits? run.2 = some digits ∧ maxDigits < digits.length ∧ count = digits.length

-- A command that fails in order: the report comes after what has been logged.
def Command.Response.Reports (r : Response) (d : Diagnostic Location) : Prop :=
  r.status = .exit 1 ∧ ∃ log, r.err = log ++ report d

theorem Cause.stage_of_ofToken {cause : Cause} (h : cause.ofToken) : cause.stage = "Parsing" := by
  unfold Cause.ofToken at h
  split at h
  · rfl
  · rfl
  · rfl
  · cases h

theorem Builder.stage_of_feedAll {b : Builder α} {ts : List (Token α)} {d : Diagnostic α}
    (h : b.feedAll ts = .error d) : d.cause.stage = "Parsing" :=
  Cause.stage_of_ofToken (Builder.ofToken_of_feedAll h)

theorem Builder.stage_of_finish {b : Builder α} {loc : α} {d : Diagnostic α}
    (h : b.finish loc = .error d) : d.cause.stage = "Parsing" := by
  unfold Builder.finish at h
  split at h
  · cases h
  · cases h
    rw [Builder.diagnose_cause]
    rfl

section Load

variable {given : String} {bytes : List UInt8}

-- Where all runs are tokens, only the parser and the bytes can be at fault.
theorem loadFile_of_becomes (hgiven : Char.ofNat 0 ∉ given.toList)
    {tokens : List (Token Location)}
    (h : List.Forall₂ Found.Becomes (fileRuns given bytes) tokens) :
    (∃ root, (loadFile given (.regular bytes)).value = .ok root) ∨
    ∃ d, (loadFile given (.regular bytes)).value = .error (.diagnostic d) ∧
      d.cause.OfLoad (.ofText given) := by
  rw [fileRuns, ← Stream.runs_start] at h
  obtain ⟨last, hdelivers⟩ := Stream.delivers_of_becomes rfl h
  rw [loadFile_of_open (openFile_regular hgiven bytes) hdelivers]
  cases hfeed : Builder.initial.feedAll tokens with
  | error d => exact .inr ⟨d, rfl, .inr (Builder.stage_of_feedAll hfeed)⟩
  | ok built =>
      have hfile : last.file = .ofText given := hdelivers.file
      cases (Stream.start (.ofText given) (.ofBytes bytes)).fault with
      | some fault => exact .inr ⟨_, rfl, .inl ⟨fault.text, congrArg (Cause.unreadable · _) hfile⟩⟩
      | none =>
          cases hfinish : built.finish last.cursor with
          | ok root => exact .inl ⟨root, by simp [Builder.atEnd, hfinish, Except.mapError]⟩
          | error d =>
              refine .inr ⟨d, ?_, .inr (Builder.stage_of_finish hfinish)⟩
              simp [Builder.atEnd, hfinish, Except.mapError]

-- A refused token hides the numerals behind it.
theorem loadFile_of_unclassified (hgiven : Char.ofNat 0 ∉ given.toList) {before more : List Found}
    {run : Found} (hruns : fileRuns given bytes = before ++ run :: more)
    {tokens : List (Token Location)}
    (h : List.Forall₂ Found.Becomes before tokens) {e : TooManyDigits}
    (hrun : Lexeme.classify run.2 = .error e) :
    (loadFile given (.regular bytes)).value = match Builder.initial.feedAll tokens with
      | .error d => .error (.diagnostic d)
      | .ok _ => .error (.tooManyDigits e.count) := by
  rw [fileRuns, ← Stream.runs_start] at hruns
  obtain ⟨last, hdelivers⟩ := Stream.delivers_of_overlong rfl hruns h hrun
  rw [loadFile_of_open (openFile_regular hgiven bytes) hdelivers]
  rfl

theorem loadFile_of_overlong (hgiven : Char.ofNat 0 ∉ given.toList) {count : Nat}
    (h : Overlong (fileRuns given bytes) count) :
    (loadFile given (.regular bytes)).value = .error (.tooManyDigits count) := by
  obtain ⟨before, run, more, tokens, built, digits, hruns, hbecomes, hfeed, hdigits, hlimit, rfl⟩ :=
    h
  have hrun : Lexeme.classify run.2 = .error ⟨digits.length⟩ :=
    Lexeme.classify_eq_error_iff.mpr ⟨digits, hdigits, hlimit, rfl⟩
  rw [loadFile_of_unclassified hgiven hruns hbecomes hrun, hfeed]

theorem loadFile_cases (hgiven : Char.ofNat 0 ∉ given.toList) (bytes : List UInt8) :
    (∃ root, (loadFile given (.regular bytes)).value = .ok root) ∨
    (∃ d, (loadFile given (.regular bytes)).value = .error (.diagnostic d) ∧
      d.cause.OfLoad (.ofText given)) ∨
    ∃ count, (loadFile given (.regular bytes)).value = .error (.tooManyDigits count) ∧
      Overlong (fileRuns given bytes) count := by
  rcases exists_becomes_or_overlong (fileRuns given bytes) with
    ⟨tokens, hbecomes⟩ | ⟨before, run, more, tokens, e, hruns, hbecomes, hrun⟩
  · exact (loadFile_of_becomes hgiven hbecomes).imp id .inl
  · have hload := loadFile_of_unclassified hgiven hruns hbecomes hrun
    cases hfeed : Builder.initial.feedAll tokens with
    | error d =>
        rw [hfeed] at hload
        exact .inr (.inl ⟨d, hload, .inr (Builder.stage_of_feedAll hfeed)⟩)
    | ok built =>
        rw [hfeed] at hload
        obtain ⟨digits, hdigits, hlimit, rfl⟩ := Lexeme.classify_eq_error_iff.mp hrun
        exact .inr (.inr ⟨digits.length, hload, before, run, more, tokens, built, digits, hruns,
          hbecomes, hfeed, hdigits, hlimit, rfl⟩)

theorem loadFile_tooManyDigits_iff (hgiven : Char.ofNat 0 ∉ given.toList) {count : Nat} :
    (loadFile given (.regular bytes)).value = .error (.tooManyDigits count) ↔
      Overlong (fileRuns given bytes) count := by
  constructor
  · intro hload
    rcases loadFile_cases hgiven bytes with ⟨root, hroot⟩ | ⟨d, hd, _⟩ | ⟨n, hn, hover⟩
    · simp [hload] at hroot
    · simp [hload] at hd
    · simp only [hload, Except.error.injEq, Failure.tooManyDigits.injEq] at hn
      exact hn ▸ hover
  · exact loadFile_of_overlong hgiven

end Load

theorem simulate_value (file : String) (state : FileState) (budget : Nat) (stack : Stack) :
    (simulate file state budget stack).value =
      (loadFile file state).value.map fun root => execute .wrapping budget root stack := by
  unfold simulate
  generalize loadFile file state = loaded
  obtain ⟨log, value⟩ := loaded
  cases value <;> rfl

namespace Command

variable {file : String} {state : FileState}

theorem Response.reports_ofFailure (d : Diagnostic Location) (out err : String) :
    (Response.ofFailure (.diagnostic d) out err).Reports d :=
  ⟨rfl, err, rfl⟩

theorem dump_of_error {failure : Failure} (h : (loadFile file state).value = .error failure)
    (threshold : Nat) :
    ∃ err, dump threshold file state = .ofFailure failure "" err := by
  unfold dump
  generalize loadFile file state = loaded at h
  obtain ⟨log, value⟩ := loaded
  subst h
  exact ⟨_, rfl⟩

theorem sim_of_error {failure : Failure} (h : (loadFile file state).value = .error failure)
    (threshold budget : Nat) :
    ∃ err, sim threshold file state budget = .ofFailure failure "" err := by
  have hvalue := simulate_value file state budget []
  rw [h] at hvalue
  unfold sim
  generalize simulate file state budget [] = ran at hvalue
  obtain ⟨log, value⟩ := ran
  subst hvalue
  exact ⟨_, rfl⟩

theorem dump_of_ok {root : Block Location} (h : (loadFile file state).value = .ok root)
    (threshold : Nat) : (dump threshold file state).status = .exit 0 := by
  unfold dump
  generalize loadFile file state = loaded at h
  obtain ⟨log, value⟩ := loaded
  subst h
  rfl

-- A run that fails is reported like a load that does.
theorem sim_of_ok {root : Block Location} (h : (loadFile file state).value = .ok root)
    (threshold budget : Nat) :
    (sim threshold file state budget).status = .exit 0 ∨
    (sim threshold file state budget).status = .capped ∨
    ∃ d, (sim threshold file state budget).Reports d := by
  have hvalue := simulate_value file state budget []
  rw [h] at hvalue
  unfold sim
  generalize simulate file state budget [] = ran at hvalue
  obtain ⟨log, value⟩ := ran
  subst hvalue
  simp only [Except.map]
  generalize execute .wrapping budget root [] = run
  obtain ⟨ending, stack, trace, left⟩ := run
  cases ending with
  | finished => exact .inl rfl
  | capped => exact .inr (.inl rfl)
  | failed trap loc => exact .inr (.inr ⟨_, Response.reports_ofFailure _ _ _⟩)

theorem reports_of_diagnostic {d : Diagnostic Location}
    (h : (loadFile file state).value = .error (.diagnostic d)) (threshold budget : Nat) :
    (dump threshold file state).Reports d ∧ (sim threshold file state budget).Reports d := by
  obtain ⟨err, hdump⟩ := dump_of_error h threshold
  obtain ⟨err', hsim⟩ := sim_of_error h threshold budget
  rw [hdump, hsim]
  exact ⟨Response.reports_ofFailure d "" err, Response.reports_ofFailure d "" err'⟩

theorem escaped_of_tooManyDigits {count : Nat}
    (h : (loadFile file state).value = .error (.tooManyDigits count)) (threshold budget : Nat) :
    (dump threshold file state).status = .escaped (.tooManyDigits count) ∧
    (sim threshold file state budget).status = .escaped (.tooManyDigits count) := by
  obtain ⟨err, hdump⟩ := dump_of_error h threshold
  obtain ⟨err', hsim⟩ := sim_of_error h threshold budget
  rw [hdump, hsim]
  exact ⟨rfl, rfl⟩

end Command

-- Whatever the bytes of a file are, it loads, or a diagnostic says why it does not, or
-- it has a numeral of too many digits. That one failure is not reported: the commands
-- end with it. Shorter numerals are numbers if they fit, and otherwise unknown words.
theorem loadFile_failures (given : String) (hgiven : Char.ofNat 0 ∉ given.toList)
    (bytes : List UInt8) :
    ((∃ root, (loadFile given (.regular bytes)).value = .ok root) ∨
      (∃ d, (loadFile given (.regular bytes)).value = .error (.diagnostic d) ∧
        d.cause.OfLoad (.ofText given)) ∨
      ∃ count, (loadFile given (.regular bytes)).value = .error (.tooManyDigits count)) ∧
    (∀ count, (loadFile given (.regular bytes)).value = .error (.tooManyDigits count) ↔
      Overlong (fileRuns given bytes) count) ∧
    (∀ threshold budget,
      (∀ root, (loadFile given (.regular bytes)).value = .ok root →
        (Command.dump threshold given (.regular bytes)).status = .exit 0 ∧
        ((Command.sim threshold given (.regular bytes) budget).status = .exit 0 ∨
          (Command.sim threshold given (.regular bytes) budget).status = .capped ∨
          ∃ d, (Command.sim threshold given (.regular bytes) budget).Reports d)) ∧
      (∀ d, (loadFile given (.regular bytes)).value = .error (.diagnostic d) →
        (Command.dump threshold given (.regular bytes)).Reports d ∧
        (Command.sim threshold given (.regular bytes) budget).Reports d) ∧
      ∀ count, (loadFile given (.regular bytes)).value = .error (.tooManyDigits count) →
        (Command.dump threshold given (.regular bytes)).status =
          .escaped (.tooManyDigits count) ∧
        (Command.sim threshold given (.regular bytes) budget).status =
          .escaped (.tooManyDigits count)) ∧
    ∀ cs digits, Lexeme.digits? cs = some digits → digits.length ≤ maxDigits →
      (Lexeme.classify cs = .ok (if Text.numberOf digits < UInt64.size
        then .int (UInt64.ofNat (Text.numberOf digits)) else .word (String.ofList cs))) ∧
      ∀ (b : Builder Location) loc, b.step ⟨.word (String.ofList cs), loc⟩ =
        .error (.unknownWord (String.ofList cs)) := by
  refine ⟨?_, fun count => loadFile_tooManyDigits_iff hgiven, ?_, ?_⟩
  · exact (loadFile_cases hgiven bytes).imp id (.imp id fun ⟨count, h, _⟩ => ⟨count, h⟩)
  · intro threshold budget
    refine ⟨?_, ?_, ?_⟩
    · intro root hroot
      exact ⟨Command.dump_of_ok hroot threshold, Command.sim_of_ok hroot threshold budget⟩
    · intro d hd
      exact Command.reports_of_diagnostic hd threshold budget
    · intro count hcount
      exact Command.escaped_of_tooManyDigits hcount threshold budget
  · intro cs digits hdigits hlimit
    constructor
    · rw [Lexeme.classify_of_digits hdigits, if_neg (Nat.not_lt.mpr hlimit)]
      split <;> rfl
    · intro b loc
      simp only [Builder.step, (Lexeme.ofText?_of_digits hdigits).2]

theorem loadFile_failures_main :
    Char.ofNat 0 ∉ "main".toList ∧
    ((∃ root, (loadFile "main" (.regular [0x30, 0xff])).value = .ok root) ∨
      (∃ d, (loadFile "main" (.regular [0x30, 0xff])).value = .error (.diagnostic d) ∧
        d.cause.OfLoad (.ofText "main")) ∨
      ∃ count, (loadFile "main" (.regular [0x30, 0xff])).value = .error (.tooManyDigits count)) ∧
    Lexeme.classify ['+', '0', '0', '7'] = .ok (.int 7) := by
  have hmain : Char.ofNat 0 ∉ "main".toList := by decide
  obtain ⟨hcases, _, _, hdigits⟩ := loadFile_failures "main" hmain [0x30, 0xff]
  have hseven := (hdigits ['+', '0', '0', '7'] ['0', '0', '7'] (by decide) (by decide)).1
  exact ⟨hmain, hcases, hseven.trans (by decide)⟩

-- A file that holds nothing but a numeral of too many digits.
theorem overlong_of_digits (given : String) {digits : List Char}
    (hdigits : ∀ c ∈ digits, Text.isDigit c = true) (hlimit : maxDigits < digits.length) :
    Overlong (fileRuns given (String.ofList (digits ++ ['\n'])).toUTF8.toList)
      digits.length := by
  have hne : digits ≠ [] := by
    rintro rfl
    simp at hlimit
  have hnot : ∀ c, Text.isDigit c = false → c ∉ digits := by
    intro c hc hmem
    simp [hdigits c hmem] at hc
  have hreturn : '\r' ∉ digits ++ ['\n'] := by
    simpa using hnot '\r' (by decide)
  have hlines : (Lines.ofBytes (String.ofList (digits ++ ['\n'])).toUTF8.toList).lines =
      [digits ++ ['\n']] := by
    rw [Lines.ofBytes_toUTF8, String.toList_ofList, Lines.newlines_eq_self hreturn, Lines.ofText]
    simpa [Lines.split] using Lines.split_append (hnot '\n' (by decide)) [] []
  have hnone : ∀ c ∈ ([] : List Char), Text.isBlank c = true := by simp
  have hruns : lineRuns 1 (digits ++ ['\n']) = [(1, digits)] :=
    lineRuns_of_line (isRun_of_digits hne hdigits) hnone 1
  refine ⟨[], (⟨.ofText given, some ⟨1, 1⟩⟩, digits), [], [], Builder.initial, digits, ?_, .nil,
    rfl, Lexeme.digits?_of_digits hne hdigits, hlimit, rfl⟩
  rw [fileRuns, hlines, runsBelow, hruns]
  rfl

-- One line of zeros, one more than can be read.
def zerosSample : List UInt8 :=
  (String.ofList (List.replicate 4301 '0' ++ ['\n'])).toUTF8.toList

-- Zeros alone are the number zero, however many there are, and yet the line does not
-- load, and the commands end without a report.
theorem loadFile_zerosSample :
    Text.numberOf (List.replicate 4301 '0') = 0 ∧
    (loadFile "main" (.regular zerosSample)).value = .error (.tooManyDigits 4301) ∧
    ∀ threshold budget,
      (Command.dump threshold "main" (.regular zerosSample)).status =
        .escaped (.tooManyDigits 4301) ∧
      (Command.sim threshold "main" (.regular zerosSample) budget).status =
        .escaped (.tooManyDigits 4301) := by
  have hzero : Text.numberOf (List.replicate 4301 '0' ++ []) = 0 := Text.numberOf_zeros 4301 []
  rw [List.append_nil] at hzero
  have hdigits : ∀ c ∈ List.replicate 4301 '0', Text.isDigit c = true := by
    intro c hc
    rw [List.eq_of_mem_replicate hc]
    decide
  have hlimit : maxDigits < (List.replicate 4301 '0').length := by
    rw [List.length_replicate]
    decide
  have hover := overlong_of_digits "main" hdigits hlimit
  rw [List.length_replicate] at hover
  have hload : (loadFile "main" (.regular zerosSample)).value = .error (.tooManyDigits 4301) :=
    loadFile_of_overlong (by decide) hover
  exact ⟨hzero, hload, Command.escaped_of_tooManyDigits hload⟩

end StackLang
