import StackLang.Proofs.Program.Range
import StackLang.Proofs.Source.Decoding
import StackLang.Proofs.Text.Numeral

-- What a run prints. Its output is one line for each value that is printed, and the values
-- can be read back from it.

namespace StackLang

variable {α β : Type}

def Event.printed? : Event α → Option Int
  | .printed value => some value
  | .overflow _ _ | .nonBinary _ _ => none

def Run.printed (run : Run α) : List Int :=
  run.trace.filterMap Event.printed?

-- The value that the next turn prints.

def Intrinsic.prints? : Intrinsic → Stack → Option Int
  | .print, value :: _ => some value
  | _, _ => none

def Config.prints? (c : Config α) : Option Int :=
  match c.frames with
  | .block (.intrinsic _ i :: _) :: _ => i.prints? c.stack
  | _ => none

theorem Intrinsic.stack_of_prints? {i : Intrinsic} {s : Stack} {value : Int}
    (h : i.prints? s = some value) : ∃ rest, s = value :: rest := by
  unfold Intrinsic.prints? at h
  split at h
  · cases h
    exact ⟨_, rfl⟩
  · cases h

theorem Config.stack_of_prints? {c : Config α} {value : Int} (h : c.prints? = some value) :
    ∃ s, c.stack = value :: s := by
  unfold Config.prints? at h
  split at h
  · exact Intrinsic.stack_of_prints? h
  · cases h

theorem Intrinsic.printed_effect (arith : Arithmetic) (loc : α) (i : Intrinsic) (s : Stack) :
    (i.effect arith loc s).shown.filterMap Event.printed? = (i.prints? s).toList := by
  obtain ⟨e, hrule⟩ := i.exists_does arith loc s
  rw [hrule.eq]
  cases hrule with
  | dups | swaps | drops | prints | copies | rotates | adds | addsOff | subtracts | subtractsOff
  | multiplies | divides | dividesByZero => rfl
  | lacks hlacks =>
      -- A `print` that lacks its operand prints nothing.
      unfold Intrinsic.prints?
      split
      · simp [Intrinsic.operands] at hlacks
      · rfl

theorem printed_conditionWarning (loc : α) (value : Int) :
    (conditionWarning loc value).filterMap Event.printed? = [] := by
  unfold conditionWarning
  split <;> rfl

theorem Config.printed_shows (arith : Arithmetic) (c : Config α) :
    (c.shows arith).filterMap Event.printed? = c.prints?.toList := by
  obtain ⟨frames, stack, trace⟩ := c
  cases frames with
  | nil => rfl
  | cons frame rest =>
      cases frame with
      | link loc inner chain =>
          cases stack with
          | nil => rfl
          | cons value stack => exact printed_conditionWarning loc value
      | loop loc cond body =>
          cases stack with
          | nil => rfl
          | cons value stack => exact printed_conditionWarning loc value
      | block ops =>
          cases ops with
          | nil => rfl
          | cons op ops =>
              cases op with
              | push loc value => rfl
              | intrinsic loc i => exact i.printed_effect arith loc stack
              | loop loc cond doLoc body => rfl
              | branch loc body chain =>
                  cases stack with
                  | nil => rfl
                  | cons value stack => exact printed_conditionWarning loc value

-- A run prints what the turns print that it completes.
theorem Course.printed_eq {arith : Arithmetic} {n : Nat} {c last : Config α}
    {completed : List (Config α)} {run : Run α} (h : Course arith n c completed last run)
    (hc : c.trace = []) : run.printed = completed.filterMap Config.prints? := by
  rw [Run.printed, h.shown, hc, List.reverse_nil, List.nil_append, List.filterMap_flatMap]
  simp only [Config.printed_shows]
  rw [List.filterMap_eq_flatMap_toList]

-- Values on the stack are in range, and so are those that are printed from it.
theorem Course.printed_fits {n : Nat} {c last : Config α} {completed : List (Config α)}
    {run : Run α} (h : Course .wrapping n c completed last run) (hc : c.stack.Fits) :
    ∀ value ∈ completed.filterMap Config.prints?, Arithmetic.Fits value := by
  intro value hvalue
  obtain ⟨state, hstate, hprints⟩ := List.mem_filterMap.mp hvalue
  have hfits : state.stack.Fits :=
    h.turns.forall_mem (P := fun c => c.stack.Fits) Config.next?_fits hc state hstate
  obtain ⟨s, hs⟩ := Config.stack_of_prints? hprints
  rw [hs] at hfits
  exact (Stack.fits_cons.mp hfits).1

-- The output holds nothing but the lines of these values.
theorem Run.output_eq_join (run : Run α) : run.output = String.join (run.printed.map printLine) := by
  rw [Run.output, Run.printed]
  induction run.trace with
  | nil => rfl
  | cons e trace ih =>
      cases e with
      | printed value =>
          simp only [List.map_cons, List.filterMap_cons, Event.output, Event.printed?,
            String.join_cons, ih]
      | overflow | nonBinary =>
          simp only [List.map_cons, List.filterMap_cons, Event.output, Event.printed?,
            String.join_cons, ih, String.empty_append]

-- A line of output for a number: its decimal and, in parentheses, its word.
inductive PrintsAs : Nat → List Char → Prop where
  | line {n : Nat} {decimal word : List Char} :
      Text.IsDecimal n decimal → Text.IsHexWord n word →
      PrintsAs n (decimal ++ ([' ', '(', '0', 'x'] ++ (word ++ [')', '\n'])))

theorem printsAs_printLine {value : Int} (h : Arithmetic.Fits value) :
    ∃ n : Nat, value = n ∧ PrintsAs n (printLine value).toList := by
  obtain ⟨n, rfl⟩ := Int.eq_ofNat_of_zero_le h.1
  have hline : (printLine n).toList = Nat.toDigits 10 n ++ ([' ', '(', '0', 'x'] ++
      ((Text.hexadecimal 16 n).toList ++ [')', '\n'])) := by
    simp [printLine, Text.decimalInt, Text.decimal]
  have hbound : n < 0x10000000000000000 := by
    have hhigh := h.2
    simp only [Arithmetic.maxValue] at hhigh
    omega
  rw [hline]
  exact ⟨n, rfl, .line (Text.isDecimal_toDigits n) (Text.isHexWord_hexadecimal hbound)⟩

-- The values in an output: the number that each of its lines starts with.
def readPrinted (text : String) : List Int :=
  (Lines.split [] text.toList).map fun line => Text.numberOf (line.takeWhile Text.isDigit)

theorem PrintsAs.numberOf_takeWhile {n : Nat} {line : List Char} (h : PrintsAs n line) :
    Text.numberOf (line.takeWhile Text.isDigit) = n := by
  obtain ⟨hdecimal, hword⟩ := h
  rw [List.takeWhile_append_of_pos hdecimal.digits, List.cons_append,
    List.takeWhile_cons_of_neg (by decide), List.append_nil, hdecimal.value]

theorem PrintsAs.split_append {n : Nat} {line : List Char} (h : PrintsAs n line)
    (rest : List Char) : Lines.split [] (line ++ rest) = line :: Lines.split [] rest := by
  cases h with
  | @line decimal word hdecimal hword =>
      -- The line feed at its end is the only one of a line.
      have hfeed : '\n' ∉ decimal ++ ([' ', '(', '0', 'x'] ++ (word ++ [')'])) := by
        simp only [List.mem_append, not_or]
        refine ⟨?_, by decide, ?_, by decide⟩
        · intro hmem
          exact absurd (hdecimal.digits _ hmem) (by decide)
        · intro hmem
          exact absurd (hword.digits _ hmem) (by decide)
      have hsplit := Lines.split_append hfeed [] rest
      simpa using hsplit

theorem readPrinted_join {values : List Int} (h : ∀ value ∈ values, Arithmetic.Fits value) :
    readPrinted (String.join (values.map printLine)) = values := by
  induction values with
  | nil => rfl
  | cons value values ih =>
      obtain ⟨hvalue, hvalues⟩ := List.forall_mem_cons.mp h
      obtain ⟨n, hn, hline⟩ := printsAs_printLine hvalue
      have hrest := ih hvalues
      rw [readPrinted] at hrest
      rw [readPrinted, List.map_cons, String.join_cons, String.toList_append,
        hline.split_append, List.map_cons, hrest, hline.numberOf_takeWhile, ← hn]

theorem execute_printed_fits (budget : Nat) (block : Block α) {stack : Stack} (h : stack.Fits) :
    ∀ value ∈ (execute .wrapping budget block stack).printed, Arithmetic.Fits value := by
  obtain ⟨completed, last, hcourse⟩ :=
    (Config.initial block stack).exists_course .wrapping budget
  have hprinted : (execute .wrapping budget block stack).printed =
      completed.filterMap Config.prints? := hcourse.printed_eq rfl
  rw [hprinted]
  exact hcourse.printed_fits h

theorem readPrinted_output (budget : Nat) (block : Block α) {stack : Stack} (h : stack.Fits) :
    readPrinted (execute .wrapping budget block stack).output =
      (execute .wrapping budget block stack).printed := by
  rw [Run.output_eq_join, readPrinted_join (execute_printed_fits budget block h)]

-- Whether it finishes, fails or is cut short, a run prints what the `print`s print that it
-- completes, in their order, and its output is a line for each of these values: its decimal
-- and the same number as a word of 64 bits. So the values can be read from the output, and
-- runs that print different values have different outputs.
theorem output_tells_printed (budget : Nat) (block : Block α) (stack : Stack)
    (hstack : stack.Fits) :
    let run := execute .wrapping budget block stack
    (∃ completed last, Course .wrapping budget (Config.initial block stack) completed last run ∧
      run.printed = completed.filterMap Config.prints?) ∧
    run.output = String.join (run.printed.map printLine) ∧
    (∀ value ∈ run.printed, ∃ n : Nat, value = n ∧ PrintsAs n (printLine value).toList) ∧
    readPrinted run.output = run.printed ∧
    ∀ (budget' : Nat) (block' : Block β) (stack' : Stack), stack'.Fits →
      run.printed ≠ (execute .wrapping budget' block' stack').printed →
      run.output ≠ (execute .wrapping budget' block' stack').output := by
  intro run
  have hread : readPrinted run.output = run.printed := readPrinted_output budget block hstack
  refine ⟨?_, run.output_eq_join, ?_, hread, ?_⟩
  · obtain ⟨completed, last, hcourse⟩ :=
      (Config.initial block stack).exists_course .wrapping budget
    exact ⟨completed, last, hcourse, hcourse.printed_eq rfl⟩
  · intro value hvalue
    exact printsAs_printLine (execute_printed_fits budget block hstack value hvalue)
  · intro budget' block' stack' hstack' hne hsame
    have hread' := readPrinted_output budget' block' hstack'
    rw [← hsame, hread] at hread'
    exact hne hread'

-- Prints a number and the largest one, and then lacks a value.
def printedSample : Block Nat :=
  [.push 0 255, .intrinsic 1 .print, .push 2 0, .push 3 1, .intrinsic 4 .subtract,
    .intrinsic 5 .print, .intrinsic 6 .drop]

theorem output_tells_printed_printedSample :
    Stack.Fits [] ∧
    (execute .wrapping 0 printedSample []).ending = .failed .underflow 6 ∧
    (execute .wrapping 0 printedSample []).printed = [255, 18446744073709551615] ∧
    (execute .wrapping 0 printedSample []).output =
      "255 (0x00000000000000ff)\n18446744073709551615 (0xffffffffffffffff)\n" ∧
    readPrinted (execute .wrapping 0 printedSample []).output = [255, 18446744073709551615] ∧
    (execute .wrapping 0 printedSample []).output ≠
      (execute .wrapping 0 (printedSample.take 5) []).output := by
  have hempty : Stack.Fits [] := List.forall_mem_nil _
  have hrun : execute .wrapping 0 printedSample [] = ⟨.failed .underflow 6, [],
      [.printed 255, .overflow 4 .subtract, .printed 18446744073709551615], 0⟩ := by
    decide +kernel
  have hprinted : (execute .wrapping 0 printedSample []).printed =
      [255, 18446744073709551615] := by
    rw [hrun]
    rfl
  have hfirst : (execute .wrapping 0 (printedSample.take 5) []).printed = [255] := by
    decide +kernel
  obtain ⟨_, houtput, _, hread, hother⟩ :=
    @output_tells_printed Nat Nat 0 printedSample [] hempty
  rw [hprinted] at houtput hread
  refine ⟨hempty, by rw [hrun], hprinted, ?_, hread, ?_⟩
  · rw [houtput]
    decide +kernel
  · exact hother 0 (printedSample.take 5) [] hempty (by rw [hprinted, hfirst]; decide)

end StackLang
