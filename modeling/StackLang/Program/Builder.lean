import StackLang.Diagnostic
import StackLang.Op.Basic

-- Builds the operation tree from tokens, one at a time:
--
--   program  ::= unit*
--   unit     ::= INT | WORD | branch | loop
--   branch   ::= "if" unit* ("else" unit* "if*" unit*)* ("else" unit*)? "end"
--   loop     ::= "while" unit* "do" unit* "end"
--
-- Blocks that are still open form a stack. All blocks under construction hold
-- their operations latest first.

namespace StackLang

inductive BranchPhase where
  | body
  | link
  | otherwise
deriving DecidableEq, Repr

inductive LoopPhase where
  | cond
  | body
deriving DecidableEq, Repr

-- A finished condition, the `if*` after it, and the block that this governs.
structure OpenLink (α : Type) where
  cond : Block α
  loc : α
  inner : Block α

-- An `if` without its `end`; its links are held latest first.
structure OpenBranch (α : Type) where
  loc : α
  body : Block α
  links : List (OpenLink α)
  otherwise : Option (Block α)
  phase : BranchPhase

-- A `while` without its `end`.
structure OpenLoop (α : Type) where
  loc : α
  cond : Block α
  doLoc : Option α
  body : Block α
  phase : LoopPhase

inductive OpenBlock (α : Type) where
  | branch (b : OpenBranch α)
  | loop (l : OpenLoop α)

-- An open block after one more marker.
inductive Marked (α : Type) where
  | still (block : OpenBlock α)
  | closed (op : Op α)

variable {α : Type}

namespace OpenBranch

def start (loc : α) : OpenBranch α := ⟨loc, [], [], none, .body⟩

-- The block that the next operation goes to.
def current? (b : OpenBranch α) : Option (Block α) :=
  match b.phase with
  | .body => some b.body
  | .link => b.links.head?.map (·.inner)
  | .otherwise => b.otherwise

def add (b : OpenBranch α) (op : Op α) : OpenBranch α :=
  match b.phase with
  | .body => { b with body := op :: b.body }
  | .link =>
      match b.links with
      | link :: links => { b with links := { link with inner := op :: link.inner } :: links }
      | [] => b
  | .otherwise => { b with otherwise := b.otherwise.map (op :: ·) }

-- What follows the body, the links put back into source order.
def chain (b : OpenBranch α) : Chain α :=
  let last := match b.otherwise with
    | none => .none
    | some block => .otherwise block.reverse
  b.links.foldl (fun rest link => .link link.cond.reverse link.loc link.inner.reverse rest) last

def closed (b : OpenBranch α) : Op α :=
  .branch b.loc b.body.reverse b.chain

-- The block after the last `else` becomes the condition of an `if*`.
def mark (b : OpenBranch α) (marker : Marker) (loc : α) : Except Cause (Marked α) :=
  match marker with
  | .otherwise =>
      if b.phase = .otherwise then
        .error (.unexpectedMarker .otherwise .repeated (some .branch) none)
      else .ok (.still (.branch { b with otherwise := some [], phase := .otherwise }))
  | .link =>
      match b.phase, b.otherwise with
      | .otherwise, some cond =>
          .ok (.still (.branch
            { b with links := ⟨cond, loc, []⟩ :: b.links, otherwise := none, phase := .link }))
      | _, _ =>
          .error (.unexpectedMarker .link .general none
            (some ("`" ++ Marker.link.text ++ "` must follow an `" ++ Marker.otherwise.text
              ++ "` with a condition block")))
  | .close => .ok (.closed b.closed)
  | .branch | .loop | .body => .error (.unexpectedMarker marker .notApplicable (some .branch) none)

end OpenBranch

namespace OpenLoop

def start (loc : α) : OpenLoop α := ⟨loc, [], none, [], .cond⟩

def add (l : OpenLoop α) (op : Op α) : OpenLoop α :=
  match l.phase with
  | .cond => { l with cond := op :: l.cond }
  | .body => { l with body := op :: l.body }

def closed (l : OpenLoop α) : Op α :=
  .loop l.loc l.cond.reverse l.doLoc l.body.reverse

def mark (l : OpenLoop α) (marker : Marker) (loc : α) : Except Cause (Marked α) :=
  match marker with
  | .body =>
      if l.phase = .body then .error (.unexpectedMarker .body .repeated (some .loop) none)
      else .ok (.still (.loop { l with doLoc := some loc, phase := .body }))
  | .close =>
      if l.phase = .cond then .error (.missingMarker .body .requiredByBlock (some .loop))
      else .ok (.closed l.closed)
  | .branch | .link | .otherwise | .loop =>
      .error (.unexpectedMarker marker .notApplicable (some .loop) none)

end OpenLoop

namespace OpenBlock

def add (block : OpenBlock α) (op : Op α) : OpenBlock α :=
  match block with
  | .branch b => .branch (b.add op)
  | .loop l => .loop (l.add op)

def mark (block : OpenBlock α) (marker : Marker) (loc : α) : Except Cause (Marked α) :=
  match block with
  | .branch b => b.mark marker loc
  | .loop l => l.mark marker loc

-- Where the block starts.
def note : OpenBlock α → Note α
  | .branch b => ⟨.branch, b.loc⟩
  | .loop l => ⟨.loop, l.loc⟩

end OpenBlock

-- The finished operations of the root block, latest first, and the open
-- blocks, innermost first.
structure Builder (α : Type) where
  root : Block α
  opened : List (OpenBlock α)

namespace Builder

def initial : Builder α := ⟨[], []⟩

-- An operation goes to the innermost open block.
def place (b : Builder α) (op : Op α) : Builder α :=
  match b.opened with
  | [] => { b with root := op :: b.root }
  | block :: outer => { b with opened := block.add op :: outer }

def step (b : Builder α) (token : Token α) : Except Cause (Builder α) :=
  match token.lexeme with
  | .word text =>
      match Intrinsic.ofText? text with
      | some i => .ok (b.place (.intrinsic token.loc i))
      | none => .error (.unknownWord text)
  | .int value => .ok (b.place (.push token.loc value))
  | .marker .branch => .ok { b with opened := .branch (.start token.loc) :: b.opened }
  | .marker .loop => .ok { b with opened := .loop (.start token.loc) :: b.opened }
  | .marker marker =>
      match b.opened with
      | [] => .error (.unexpectedMarker marker .freeFloating none none)
      | block :: outer =>
          match block.mark marker token.loc with
          | .error cause => .error cause
          | .ok (.still block) => .ok { b with opened := block :: outer }
          | .ok (.closed op) => .ok ({ b with opened := outer }.place op)

-- A fault is reported with the blocks that are open around it.
def diagnose (b : Builder α) (cause : Cause) (loc : α) : Diagnostic α :=
  (b.opened.map OpenBlock.note).foldl Diagnostic.addNote ((Diagnostic.ofCause cause).located loc)

theorem diagnose_eq (b : Builder α) (cause : Cause) (loc : α) :
    b.diagnose cause loc = ⟨cause, some loc, b.opened.map OpenBlock.note⟩ :=
  Diagnostic.foldl_addNote _ _

@[simp] theorem diagnose_cause (b : Builder α) (cause : Cause) (loc : α) :
    (b.diagnose cause loc).cause = cause := by
  rw [diagnose_eq]

@[simp] theorem diagnose_loc (b : Builder α) (cause : Cause) (loc : α) :
    (b.diagnose cause loc).loc = some loc := by
  rw [diagnose_eq]

def feed (b : Builder α) (token : Token α) : Except (Diagnostic α) (Builder α) :=
  match b.step token with
  | .ok next => .ok next
  | .error cause => .error (b.diagnose cause token.loc)

-- At the end of the tokens, where `loc` is, every block has to be closed.
def finish (b : Builder α) (loc : α) : Except (Diagnostic α) (Block α) :=
  if b.opened.isEmpty then .ok b.root.reverse
  else .error (b.diagnose (.missingMarker .close .blockNotClosed none) loc)

-- The operation of the root block that the last token completed.
def completed? (b : Builder α) : Option (Op α) :=
  if b.opened.isEmpty then b.root.head? else none

def feedAll (b : Builder α) : List (Token α) → Except (Diagnostic α) (Builder α)
  | [] => .ok b
  | token :: rest =>
      match b.feed token with
      | .ok next => next.feedAll rest
      | .error d => .error d

end Builder

-- The tree of a list of tokens, which ends at `loc`.
def parse (tokens : List (Token α)) (loc : α) : Except (Diagnostic α) (Block α) :=
  match Builder.initial.feedAll tokens with
  | .ok b => b.finish loc
  | .error d => .error d

end StackLang
