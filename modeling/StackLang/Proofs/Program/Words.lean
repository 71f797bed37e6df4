import StackLang.Proofs.Parse.Erasure
import StackLang.Proofs.Parse.Nesting
import StackLang.Proofs.Parse.Relocation
import StackLang.Proofs.Program.Failures
import StackLang.Proofs.Program.Lazy
import StackLang.Proofs.Token.Cursor

-- What a file is loaded as is a matter of its words. Where they stand is only carried
-- along, so that the layout of a text makes no difference.

namespace StackLang

variable {α β : Type}

-- Why a row of runs is not a program.
inductive Refusal (α : Type) where
  | diagnostic (d : Diagnostic α)
  | tooManyDigits (count : Nat)

def Refusal.map (f : α → β) : Refusal α → Refusal β
  | .diagnostic d => .diagnostic (d.map f)
  | .tooManyDigits count => .tooManyDigits count

def Refusal.failure : Refusal Location → Failure
  | .diagnostic d => .diagnostic d
  | .tooManyDigits count => .tooManyDigits count

-- What a builder makes of a row of runs. Each is classified just before it is fed, and
-- the row ends at `last`.
def Builder.readRuns (b : Builder α) (last : α) :
    List (α × List Char) → Except (Refusal α) (Block α)
  | [] => (b.finish last).mapError .diagnostic
  | run :: more =>
      match Lexeme.classify run.2 with
      | .error e => .error (.tooManyDigits e.count)
      | .ok lexeme =>
          match b.feed ⟨lexeme, run.1⟩ with
          | .error d => .error (.diagnostic d)
          | .ok next => next.readRuns last more

theorem Builder.readRuns_of_fed {b next : Builder α} (run : α × List Char) {lexeme : Lexeme}
    (hclassify : Lexeme.classify run.2 = .ok lexeme) (hfeed : b.feed ⟨lexeme, run.1⟩ = .ok next)
    (last : α) (more : List (α × List Char)) :
    b.readRuns last (run :: more) = next.readRuns last more := by
  simp only [Builder.readRuns, hclassify, hfeed]

theorem Builder.readRuns_of_refused {b : Builder α} (run : α × List Char) {lexeme : Lexeme}
    {d : Diagnostic α} (hclassify : Lexeme.classify run.2 = .ok lexeme)
    (hfeed : b.feed ⟨lexeme, run.1⟩ = .error d) (last : α) (more : List (α × List Char)) :
    b.readRuns last (run :: more) = .error (.diagnostic d) := by
  simp only [Builder.readRuns, hclassify, hfeed]

theorem Builder.readRuns_of_overlong {b : Builder α} (run : α × List Char) {e : TooManyDigits}
    (hclassify : Lexeme.classify run.2 = .error e) (last : α) (more : List (α × List Char)) :
    b.readRuns last (run :: more) = .error (.tooManyDigits e.count) := by
  simp only [Builder.readRuns, hclassify]

-- The induction is on the runs that are left, one call for each and one for the end.
theorem Builder.build_eq_readRuns {s : Stream} (hopen : s.closed = false) (hfault : s.fault = none)
    (b : Builder Location) (log : List Notice) :
    (b.build s log).value = (b.readRuns s.endCursor s.runs).mapError Refusal.failure := by
  generalize hruns : s.runs = runs
  induction runs generalizing s b log with
  | nil =>
      have hanswer : s.answer = _ := Stream.pull_of_no_runs hopen [] hruns
      have hcursor : s.after.cursor = s.endCursor := Stream.cursor_of_no_runs hopen [] hruns
      rw [hfault] at hanswer
      rw [(Stream.Delivers.done hanswer).build b log]
      simp only [Builder.feedAll, Builder.atEnd, Builder.readRuns, hcursor]
      cases b.finish s.endCursor <;> rfl
  | cons run more ih =>
      obtain ⟨hanswer, hmore, hstill, hclean⟩ := Stream.pull_of_run hopen [] hruns
      have hend : s.after.endCursor = s.endCursor := Stream.endCursor_pull hopen [] s.pending
      cases hclassify : Lexeme.classify run.2 with
      | error e =>
          rw [hclassify] at hanswer
          rw [(Stream.Delivers.fault hanswer).build b log,
            Builder.readRuns_of_overlong run hclassify]
          rfl
      | ok lexeme =>
          rw [hclassify] at hanswer
          rw [Builder.build_of_token hanswer]
          cases hfeed : b.feed ⟨lexeme, run.1⟩ with
          | error d =>
              rw [Builder.readRuns_of_refused run hclassify hfeed]
              rfl
          | ok next =>
              rw [Builder.readRuns_of_fed run hclassify hfeed, ← hend]
              exact ih hstill (hclean.trans hfault) next _ hmore

-- Where the reading of a file ends.
def fileEnd (given : String) (bytes : List UInt8) : Location :=
  (Stream.start (.ofText given) (.ofBytes bytes)).endCursor

-- What a file with this text loads as.
def loadText (given text : String) : Except Failure (Block Location) :=
  (loadFile given (.regular text.toUTF8.toList)).value

-- The same, where the file can be opened.
def readText (given text : String) : Except (Refusal Location) (Block Location) :=
  Builder.initial.readRuns (fileEnd given text.toUTF8.toList)
    (fileRuns given text.toUTF8.toList)

theorem loadText_eq_readText {given text : String}
    (hopen : openFile (.ofText given) (.regular text.toUTF8.toList) =
      .ok (.start (.ofText given) (.ofBytes text.toUTF8.toList))) :
    loadText given text = (readText given text).mapError Refusal.failure := by
  have hfault : (Lines.ofBytes text.toUTF8.toList).fault = none := by
    rw [Lines.ofBytes_toUTF8]
    rfl
  rw [loadText, loadFile_value, parseFile, hopen]
  simp only
  rw [Builder.build_eq_readRuns rfl hfault, Stream.runs_start]
  rfl

theorem Builder.map_readRuns (f : α → β) (b : Builder α) (last : α)
    (runs : List (α × List Char)) :
    (b.map f).readRuns (f last) (runs.map (Prod.map f id)) =
      ((b.readRuns last runs).map (Block.mapLoc f)).mapError (Refusal.map f) := by
  induction runs generalizing b with
  | nil =>
      rw [List.map_nil, Builder.readRuns, Builder.readRuns, Builder.map_finish]
      cases b.finish last <;> rfl
  | cons run more ih =>
      obtain ⟨loc, text⟩ := run
      rw [List.map_cons, Prod.map_apply, id]
      cases hclassify : Lexeme.classify text with
      | error e =>
          rw [Builder.readRuns_of_overlong (f loc, text) hclassify,
            Builder.readRuns_of_overlong (loc, text) hclassify]
          rfl
      | ok lexeme =>
          have hmap := Builder.map_feed f b ⟨lexeme, loc⟩
          cases hfeed : b.feed ⟨lexeme, loc⟩ with
          | error d =>
              rw [hfeed] at hmap
              rw [Builder.readRuns_of_refused (f loc, text) hclassify hmap,
                Builder.readRuns_of_refused (loc, text) hclassify hfeed]
              rfl
          | ok next =>
              rw [hfeed] at hmap
              rw [Builder.readRuns_of_fed (f loc, text) hclassify hmap,
                Builder.readRuns_of_fed (loc, text) hclassify hfeed]
              exact ih next

-- The words of a text.
def wordsOf (text : String) : List (List Char) :=
  (textRuns (Lines.newlines text.toList)).map Prod.snd

-- Where the words of a text stand, by their number, and behind them the end of its reading.
def wordPlace (given text : String) (i : Nat) : Location :=
  match (textRuns (Lines.newlines text.toList))[i]? with
  | some run => ⟨.ofText given, some run.1⟩
  | none => fileEnd given text.toUTF8.toList

-- What words are read as, with their numbers for locations.
def treeOfWords (words : List (List Char)) : Except (Refusal Nat) (Block Nat) :=
  Builder.initial.readRuns words.length (words.zipIdx.map Prod.swap)

theorem fileRuns_toUTF8 (given text : String) :
    fileRuns given text.toUTF8.toList =
      ((wordsOf text).zipIdx.map Prod.swap).map (Prod.map (wordPlace given text) id) := by
  rw [fileRuns, Lines.ofBytes_toUTF8, Lines.ofText, runsBelow_split]
  apply List.ext_getElem?
  intro i
  simp only [List.getElem?_map, List.getElem?_zipIdx, wordsOf, Option.map_map]
  cases h : (textRuns (Lines.newlines text.toList))[i]? with
  | none => rfl
  | some run => simp [wordPlace, h]

-- Whatever it is loaded as, a text is its words with their places.
theorem readText_eq (given text : String) :
    readText given text =
      ((treeOfWords (wordsOf text)).map (Block.mapLoc (wordPlace given text))).mapError
        (Refusal.map (wordPlace given text)) := by
  have hend : fileEnd given text.toUTF8.toList =
      wordPlace given text (wordsOf text).length := by
    simp [wordPlace, wordsOf]
  rw [readText, fileRuns_toUTF8, hend]
  exact Builder.map_readRuns _ Builder.initial _ _

theorem Builder.notes_of_feed {b : Builder α} {t : Token α} {d : Diagnostic α}
    (h : b.feed t = .error d) : d.notes = b.opened.map OpenBlock.note := by
  unfold Builder.feed at h
  split at h
  · cases h
  · cases h
    rw [Builder.diagnose_eq]

-- A word that is refused comes behind the words that opened the blocks around it, and so
-- does the end. The blocks that are open before word `n` start at words before it.
theorem Builder.diagnostic_of_readRuns {b : Builder Nat} {n : Nat} {words : List (List Char)}
    {d : Diagnostic Nat} (hb : ∀ note ∈ b.opened.map OpenBlock.note, note.loc < n)
    (h : b.readRuns (n + words.length) ((words.zipIdx n).map Prod.swap) =
      .error (.diagnostic d)) :
    ∃ i, d.loc = some i ∧ (∀ note ∈ d.notes, note.loc < i) ∧
      (d.cause.ofToken ∧ i < n + words.length ∨ d.cause.ofEnd ∧ i = n + words.length) := by
  induction words generalizing b n with
  | nil =>
      simp only [List.zipIdx_nil, List.map_nil, Builder.readRuns, Builder.finish] at h
      split at h
      · cases h
      · cases h
        rw [Builder.diagnose_eq]
        exact ⟨n, rfl, hb, .inr ⟨rfl, rfl⟩⟩
  | cons word words ih =>
      simp only [List.zipIdx_cons, List.map_cons, Builder.readRuns, Prod.swap_prod_mk] at h
      split at h
      · cases h
      · next lexeme _ =>
          split at h
          · next hfeed =>
              cases h
              obtain ⟨hcause, hloc⟩ := Builder.ofToken_of_feed hfeed
              refine ⟨n, hloc, ?_, .inl ⟨hcause, by simp⟩⟩
              rwa [Builder.notes_of_feed hfeed]
          · next next hfeed =>
              have hnext : ∀ note ∈ next.opened.map OpenBlock.note, note.loc < n + 1 := by
                intro note hnote
                rw [Builder.note_takes (Builder.takes_of_feed hfeed)] at hnote
                rcases mem_bracket hnote with hmem | hloc
                · exact Nat.lt_succ_of_lt (hb note hmem)
                · exact hloc ▸ Nat.lt_succ_self n
              have hlength : n + (word :: words).length = n + 1 + words.length := by
                simp only [List.length_cons]
                omega
              rw [hlength] at h ⊢
              exact ih hnext h

-- Two texts with the same words, whatever blanks, line ends and comments are between them,
-- either load as trees that differ in their locations alone or fail alike. One diagnostic,
-- told with the numbers of words, is then given by both, each with the places of its own
-- words; only an open block is reported behind the last of them, where the reading ends.
theorem loadText_of_same_words {given given' : String} (hgiven : Char.ofNat 0 ∉ given.toList)
    (hgiven' : Char.ofNat 0 ∉ given'.toList) {text text' : String}
    (hwords : wordsOf text = wordsOf text') :
    (∃ root root', loadText given text = .ok root ∧ loadText given' text' = .ok root' ∧
      Block.erased root = Block.erased root') ∨
    (∃ d : Diagnostic Nat,
      loadText given text = .error (.diagnostic (d.map (wordPlace given text))) ∧
      loadText given' text' = .error (.diagnostic (d.map (wordPlace given' text'))) ∧
      ∃ i, d.loc = some i ∧ (∀ note ∈ d.notes, note.loc < i) ∧
        (d.cause.ofToken ∧ i < (wordsOf text).length ∨
          d.cause.ofEnd ∧ i = (wordsOf text).length)) ∨
    ∃ count, loadText given text = .error (.tooManyDigits count) ∧
      loadText given' text' = .error (.tooManyDigits count) := by
  rw [loadText_eq_readText (openFile_regular hgiven _),
    loadText_eq_readText (openFile_regular hgiven' _), readText_eq, readText_eq, ← hwords]
  cases htree : treeOfWords (wordsOf text) with
  | ok tree =>
      refine .inl ⟨_, _, rfl, rfl, ?_⟩
      rw [Block.erased_mapLoc, Block.erased_mapLoc]
  | error refusal =>
      cases refusal with
      | tooManyDigits count => exact .inr (.inr ⟨count, rfl, rfl⟩)
      | diagnostic d =>
          rw [treeOfWords, ← Nat.zero_add (wordsOf text).length] at htree
          have hd := Builder.diagnostic_of_readRuns (by simp [Builder.initial]) htree
          rw [Nat.zero_add] at hd
          exact .inr (.inl ⟨d, rfl, rfl, hd⟩)

-- Where a text that does not load is refused.
def refusedAt? (loaded : Except Failure (Block Location)) : Option Location :=
  match loaded with
  | .error (.diagnostic d) => d.loc
  | _ => none

theorem exists_diagnostic_of_refusedAt {loaded : Except Failure (Block Location)} {loc : Location}
    (h : refusedAt? loaded = some loc) :
    ∃ d, loaded = .error (.diagnostic d) ∧ d.loc = some loc := by
  unfold refusedAt? at h
  split at h
  · next d => exact ⟨d, rfl, h⟩
  · cases h

-- Six words, in one line and in many. The last is refused inside two blocks.
def denseSample : String := "if 1 else while 2 else"

def spreadSample : String := "// first\n if\n\t1 else // if*\r\n\r\nwhile 2\n  else // end"

theorem loadText_of_same_words_spreadSample :
    wordsOf denseSample = wordsOf spreadSample ∧
    ∃ d : Diagnostic Nat,
      loadText "dense" denseSample =
        .error (.diagnostic (d.map (wordPlace "dense" denseSample))) ∧
      loadText "spread" spreadSample =
        .error (.diagnostic (d.map (wordPlace "spread" spreadSample))) ∧
      d.loc.map (wordPlace "dense" denseSample) = some ⟨⟨0, ["dense"]⟩, some ⟨1, 19⟩⟩ ∧
      d.loc.map (wordPlace "spread" spreadSample) = some ⟨⟨0, ["spread"]⟩, some ⟨6, 3⟩⟩ := by
  have hwords : wordsOf denseSample = wordsOf spreadSample := by decide +kernel
  have hdense : refusedAt? (loadText "dense" denseSample) =
      some ⟨⟨0, ["dense"]⟩, some ⟨1, 19⟩⟩ := by decide +kernel
  have hspread : refusedAt? (loadText "spread" spreadSample) =
      some ⟨⟨0, ["spread"]⟩, some ⟨6, 3⟩⟩ := by decide +kernel
  rcases @loadText_of_same_words "dense" "spread" (by decide) (by decide) _ _ hwords with
    ⟨_, _, hroot, _⟩ | ⟨d, hd, hd', _⟩ | ⟨_, hcount, _⟩
  · cases hdense.symm.trans (congrArg refusedAt? hroot)
  · exact ⟨hwords, d, hd, hd', (congrArg refusedAt? hd).symm.trans hdense,
      (congrArg refusedAt? hd').symm.trans hspread⟩
  · cases hdense.symm.trans (congrArg refusedAt? hcount)

end StackLang
