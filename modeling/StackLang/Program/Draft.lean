import StackLang.Op.Basic
import StackLang.Source.Location

-- Trees that are written down node by node, and have to be checked before
-- they are programs.

namespace StackLang

inductive Problem where
  | missing
  | notInteger
  | tooSmall
  | tooLarge
  | notListed
  | notRecord
deriving DecidableEq, Repr

def Problem.name : Problem → String
  | .missing => "missing"
  | .notInteger => "int_type"
  | .tooSmall => "greater_than_equal"
  | .tooLarge => "less_than_equal"
  | .notListed => "enum"
  | .notRecord => "model_type"

-- A problem with the value of a field.
structure Rejection where
  problem : Problem
  field : String
deriving DecidableEq, Repr

-- A number that was asked for.
inductive Field where
  | absent
  | null
  | number (n : Int)
deriving DecidableEq, Repr

namespace Field

-- Lines and columns count from one.
def checkCount (field : Field) (name : String) : Except Rejection Nat :=
  match field with
  | .absent => .error ⟨.missing, name⟩
  | .null => .error ⟨.notInteger, name⟩
  | .number n => if n < 1 then .error ⟨.tooSmall, name⟩ else .ok n.toNat

end Field

-- Both counts are checked before either is refused.
def checkPosition (line column : Field) : Except (List Rejection) Position :=
  match line.checkCount "line", column.checkCount "column" with
  | .ok line, .ok column => .ok ⟨line, column⟩
  | .error l, .error c => .error [l, c]
  | .error l, .ok _ => .error [l]
  | .ok _, .error c => .error [c]

-- A place in a known file: none, the file as a whole, or a position in it.
inductive Place where
  | nowhere
  | file
  | spot (line column : Field)
deriving DecidableEq, Repr

namespace Place

def check? (file : Path) : Place → Except (List Rejection) (Option Location)
  | .nowhere => .ok none
  | .file => .ok (some ⟨file, none⟩)
  | .spot line column =>
      match checkPosition line column with
      | .ok position => .ok (some ⟨file, some position⟩)
      | .error rejections => .error rejections

end Place

-- Where a location is needed, none is refused.
def needLocation : Option Location → Except (List Rejection) Location
  | some loc => .ok loc
  | none => .error [⟨.notRecord, "location"⟩]

mutual

inductive Draft where
  | push (value : Int) (loc : Place)
  | intrinsic (name : String) (loc : Place)
  | branch (body : List Draft) (links : List DraftLink) (otherwise : Option (List Draft))
      (loc : Place)
  | loop (cond : List Draft) (doLoc : Place) (body : List Draft) (loc : Place)

inductive DraftLink where
  | mk (loc : Place) (cond inner : List Draft)

end

instance : Inhabited Draft := ⟨.push 0 .nowhere⟩

instance : Inhabited DraftLink := ⟨.mk .nowhere [] []⟩

def checkValue (value : Int) : Except (List Rejection) UInt64 :=
  if value < 0 then .error [⟨.tooSmall, "value"⟩]
  else if UInt64.size ≤ value then .error [⟨.tooLarge, "value"⟩]
  else .ok (UInt64.ofNat value.toNat)

def checkIntrinsic (name : String) : Except (List Rejection) Intrinsic :=
  match Intrinsic.ofText? name with
  | some i => .ok i
  | none => .error [⟨.notListed, "intrinsic"⟩]

def checkLocation (file : Path) (place : Place) : Except (List Rejection) Location := do
  needLocation (← place.check? file)

-- Nodes are checked in order, their parts before their own location. A link's
-- position is checked before its blocks; that it has one at all, after them.

mutual

def Draft.check (file : Path) : Draft → Except (List Rejection) (Op Location)
  | .push value loc => do
      let value ← checkValue value
      return .push (← checkLocation file loc) value
  | .intrinsic name loc => do
      let i ← checkIntrinsic name
      return .intrinsic (← checkLocation file loc) i
  | .branch body links otherwise loc => do
      let body ← Draft.checkAll file body
      let links ← DraftLink.checkAll file links
      let last ← match otherwise with
        | none => pure Chain.none
        | some block => do pure (Chain.otherwise (← Draft.checkAll file block))
      return .branch (← checkLocation file loc) body (links last)
  | .loop cond doLoc body loc => do
      let cond ← Draft.checkAll file cond
      let doLoc ← doLoc.check? file
      let body ← Draft.checkAll file body
      return .loop (← checkLocation file loc) cond doLoc body

def Draft.checkAll (file : Path) : List Draft → Except (List Rejection) (Block Location)
  | [] => return []
  | draft :: rest => do
      let op ← Draft.check file draft
      return op :: (← Draft.checkAll file rest)

-- The links of a chain, as what they put before the end of it.
def DraftLink.checkAll (file : Path) :
    List DraftLink → Except (List Rejection) (Chain Location → Chain Location)
  | [] => return id
  | .mk place cond inner :: rest => do
      let loc? ← place.check? file
      let cond ← Draft.checkAll file cond
      let inner ← Draft.checkAll file inner
      let loc ← needLocation loc?
      let links ← DraftLink.checkAll file rest
      return fun last => .link cond loc inner (links last)

end

end StackLang
