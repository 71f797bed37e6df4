import StackLang.Program.Reload
import StackLang.Proofs.Parse.Erasure
import StackLang.Proofs.Parse.Relocation
import StackLang.Proofs.Program.Pipeline
import StackLang.Proofs.Source.Decoding
import StackLang.Proofs.Token.Classify

-- A tree that is laid out as text and loaded again comes back, but for its
-- locations.

namespace StackLang

variable {α : Type}

theorem Entry.known_token (e : Entry α) : e.token.lexeme.Known := by
  cases e with
  | intrinsic loc i => exact ⟨i, rfl⟩
  | push | branch | cond | link | otherwise | loop | body | done => trivial

theorem Block.known_rows {block : Block α} {depth : Int} {row : Row}
    (h : row ∈ Block.rows depth block) : row.lexeme.Known := by
  have hlexeme : row.lexeme ∈ (Block.spelling block).map Token.lexeme := by
    rw [← Block.lexeme_rows depth]
    exact List.mem_map_of_mem h
  simp only [Block.spelling, List.map_map, List.mem_map] at hlexeme
  obtain ⟨e, _, he⟩ := hlexeme
  rw [← he]
  exact e.known_token

-- The characters of a row, its line feed included.
def Row.line (row : Row) : Line :=
  List.replicate (2 * row.depth.toNat) ' ' ++ (row.lexeme.text.toList ++ ['\n'])

theorem Block.toList_sourceText (root : Block α) :
    (Block.sourceText root).toList = (Block.rows 0 root).flatMap Row.line := by
  rw [Block.sourceText, Block.layout_eq, String.toList_join, List.flatMap_map, List.flatMap_map]
  congr 1
  funext row
  simp [Row.text, Row.line, indent]

-- Rows have no line end but their last character.
theorem Row.not_mem_line {row : Row} (h : row.lexeme.Known) {c : Char}
    (hblank : Text.isBlank c = true) (hspace : c ≠ ' ') :
    c ∉ List.replicate (2 * row.depth.toNat) ' ' ++ row.lexeme.text.toList := by
  intro hmem
  rcases List.mem_append.mp hmem with hmem | hmem
  · exact hspace (List.eq_of_mem_replicate hmem)
  · have hunbroken := (Lexeme.isRun_text h).unbroken c hmem
    simp [hunbroken] at hblank

theorem Lines.split_rows {rows : List Row} (h : ∀ row ∈ rows, row.lexeme.Known) :
    split [] (rows.flatMap Row.line) = rows.map Row.line := by
  induction rows with
  | nil => rfl
  | cons row rows ih =>
      have hfeed := Row.not_mem_line (h row List.mem_cons_self) (c := '\n') (by decide) (by decide)
      have hrest := ih fun other hother => h other (List.mem_cons_of_mem row hother)
      have hsplit := Lines.split_append hfeed [] (rows.flatMap Row.line)
      rw [hrest] at hsplit
      simpa [Row.line] using hsplit

theorem Block.newlines_sourceText (root : Block α) :
    Lines.newlines (Block.sourceText root).toList = (Block.sourceText root).toList := by
  apply Lines.newlines_eq_self
  rw [Block.toList_sourceText]
  intro hmem
  obtain ⟨row, hrow, hmem⟩ := List.mem_flatMap.mp hmem
  have hreturn := Row.not_mem_line (Block.known_rows hrow) (c := '\r') (by decide) (by decide)
  rw [Row.line, ← List.append_assoc, List.mem_append, List.mem_singleton] at hmem
  rcases hmem with hmem | hmem
  · exact hreturn hmem
  · exact absurd hmem (by decide)

theorem Text.isBlank_spaces (n : Nat) : ∀ c ∈ List.replicate n ' ', isBlank c = true := by
  intro c hc
  rw [List.eq_of_mem_replicate hc]
  decide

theorem Row.lineRuns_line {row : Row} (h : row.lexeme.Known) :
    lineRuns 1 row.line = [(1 + 2 * row.depth.toNat, row.lexeme.text.toList)] := by
  rw [Row.line, lineRuns_of_line (Lexeme.isRun_text h) (Text.isBlank_spaces _),
    List.length_replicate]

-- Each row is one run, and the run is read as the lexeme of the row.
theorem becomes_rows (file : Path) (line : Nat) {rows : List Row}
    (h : ∀ row ∈ rows, row.lexeme.Known) :
    ∃ tokens, List.Forall₂ Found.Becomes (runsBelow file line (rows.map Row.line)) tokens ∧
      tokens.map Token.lexeme = rows.map Row.lexeme := by
  induction rows generalizing line with
  | nil => exact ⟨[], .nil, rfl⟩
  | cons row rows ih =>
      have hknown := h row List.mem_cons_self
      obtain ⟨tokens, hbecomes, hlexemes⟩ :=
        ih (line + 1) fun other hother => h other (List.mem_cons_of_mem row hother)
      refine ⟨⟨row.lexeme, ⟨file, some ⟨line + 1, 1 + 2 * row.depth.toNat⟩⟩⟩ :: tokens, ?_, ?_⟩
      · rw [List.map_cons, runsBelow, Row.lineRuns_line hknown]
        exact .cons ⟨Lexeme.classify_text hknown, rfl⟩ hbecomes
      · rw [List.map_cons, List.map_cons, hlexemes]

-- The tokens that are read back have the lexemes that the tree is spelled with.
theorem Block.reload_eq (root : Block α) {given : String}
    (hgiven : Char.ofNat 0 ∉ given.toList) :
    ∃ tokens loc, Block.reload root given = (parse tokens loc).mapError .diagnostic ∧
      tokens.map Token.lexeme = (Block.spelling root).map Token.lexeme := by
  have hknown : ∀ row ∈ Block.rows 0 root, row.lexeme.Known := fun _ => Block.known_rows
  obtain ⟨tokens, hbecomes, hlexemes⟩ := becomes_rows (.ofText given) 0 hknown
  have hlines : Lines.ofBytes (Block.sourceText root).toUTF8.toList =
      ⟨(Block.rows 0 root).map Row.line, none⟩ := by
    rw [Lines.ofBytes_toUTF8, Block.newlines_sourceText, Block.toList_sourceText, Lines.ofText,
      Lines.split_rows hknown]
  have hstart : ∃ last, (Stream.start (.ofText given)
      ⟨(Block.rows 0 root).map Row.line, none⟩).Delivers tokens none last := by
    apply Stream.delivers_of_becomes rfl
    rw [Stream.runs_start]
    exact hbecomes
  rw [← hlines] at hstart
  obtain ⟨last, hdelivers⟩ := hstart
  refine ⟨tokens, last.cursor, loadFile_of_delivers hgiven hdelivers, ?_⟩
  rw [hlexemes, Block.lexeme_rows]

-- A tree comes back from its text, but for its locations, and then has the same
-- text again. Any path will do that a file can have.
theorem reload_erased (root : Block α) (given : String)
    (hgiven : Char.ofNat 0 ∉ given.toList) :
    ∃ again, Block.reload root given = .ok again ∧ Block.erased again = Block.erased root ∧
      Block.sourceText again = Block.sourceText root := by
  obtain ⟨tokens, loc, hreload, hlexemes⟩ := Block.reload_eq root hgiven
  have hunlocated : tokens.map (Token.map fun _ => ()) =
      ((Block.spelling root).map Token.lexeme).map Lexeme.unlocated := by
    rw [← hlexemes, List.map_map]
    rfl
  have hparse := parse_map (fun _ => ()) tokens loc
  rw [hunlocated, parse_erased] at hparse
  cases hagain : parse tokens loc with
  | error d =>
      rw [hagain] at hparse
      cases hparse
  | ok again =>
      rw [hagain] at hreload
      have hspelling : (Block.spelling again).map Token.lexeme =
          (Block.spelling root).map Token.lexeme := by
        rw [spelling_of_parse hagain, ← hlexemes, List.map_map]
        congr 1
        funext t
        exact (Token.lexeme_eq_of_kept rfl).symm
      have herased := (Block.erased_eq_iff again root).mpr hspelling
      exact ⟨again, hreload, herased, Block.sourceText_of_erased_eq herased⟩

-- An `if` with a link and an empty `else`, and a loop around an `if` without one.
def linkedSample : Block Nat :=
  [.push 0 18446744073709551615,
    .branch 1 [.intrinsic 2 .dup] (.link [.push 3 1] 4 [] (.otherwise [])),
    .loop 5 [.intrinsic 6 .over] none [.branch 7 [] .none]]

theorem reload_erased_linkedSample :
    Char.ofNat 0 ∉ "dumped.txt".toList ∧
    ∃ again, Block.reload linkedSample "dumped.txt" = .ok again ∧
      Block.erased again = Block.erased linkedSample ∧
      Block.sourceText again = Block.sourceText linkedSample :=
  ⟨by decide, reload_erased linkedSample "dumped.txt" (by decide)⟩

end StackLang
