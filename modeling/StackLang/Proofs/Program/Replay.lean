import StackLang.Program.Simulate
import StackLang.Proofs.Machine.Lockstep
import StackLang.Proofs.Program.RoundTrip

-- A tree that is laid out as text and loaded again runs as before. Its nodes have
-- other locations, so what a run reports is compared by the places of the nodes.

namespace StackLang

variable {α β : Type}

-- From a node to a part of it, and from a block to an operation in it.
inductive Descent where
  | item (i : Nat)
  | cond
  | body
  | chain
deriving DecidableEq, Repr

-- A place in a tree: the way down to it from the root.
abbrev Route := List Descent

inductive Node (α : Type) where
  | op (op : Op α)
  | block (ops : Block α)
  | chain (chain : Chain α)

def Node.child : Node α → Descent → Option (Node α)
  | .block ops, .item i => ops[i]?.map .op
  | .op (.branch _ body _), .body => some (.block body)
  | .op (.branch _ _ rest), .chain => some (.chain rest)
  | .op (.loop _ cond _ _), .cond => some (.block cond)
  | .op (.loop _ _ _ body), .body => some (.block body)
  | .chain (.otherwise ops), .body => some (.block ops)
  | .chain (.link cond _ _ _), .cond => some (.block cond)
  | .chain (.link _ _ inner _), .body => some (.block inner)
  | .chain (.link _ _ _ rest), .chain => some (.chain rest)
  | _, _ => none

def Node.descend : Node α → Route → Option (Node α)
  | n, [] => some n
  | n, d :: route => (n.child d).bind fun m => m.descend route

-- The location that a node is known by in warnings and errors. A loop is known by
-- the `do` that tests, if the location of that is known.
def Node.loc? : Node α → Option α
  | .op (.loop loc _ doLoc _) => some (doLoc.getD loc)
  | .op other => some other.loc
  | .chain (.link _ loc _ _) => some loc
  | .chain _ | .block _ => none

def Node.locAt (n : Node α) (route : Route) : Option α :=
  (n.descend route).bind Node.loc?

-- A tree of the same shape in which each node is located at its own place. `above` is
-- the place of the node or block, and `i` the number of the block's first operation.

mutual

def Op.routed (above : Route) : Op α → Op Route
  | .push _ value => .push above value
  | .intrinsic _ i => .intrinsic above i
  | .branch _ body chain =>
      .branch above (Block.routed (above ++ [.body]) 0 body)
        (Chain.routed (above ++ [.chain]) chain)
  | .loop _ cond _ body =>
      .loop above (Block.routed (above ++ [.cond]) 0 cond) (some above)
        (Block.routed (above ++ [.body]) 0 body)

def Block.routed (above : Route) (i : Nat) : List (Op α) → List (Op Route)
  | [] => []
  | op :: ops => Op.routed (above ++ [.item i]) op :: Block.routed above (i + 1) ops

def Chain.routed (above : Route) : Chain α → Chain Route
  | .none => .none
  | .otherwise block => .otherwise (Block.routed (above ++ [.body]) 0 block)
  | .link cond _ inner rest =>
      .link (Block.routed (above ++ [.cond]) 0 cond) above
        (Block.routed (above ++ [.body]) 0 inner) (Chain.routed (above ++ [.chain]) rest)

end

def Block.routes (root : Block α) : Block Route :=
  Block.routed [] 0 root

variable {rel : Route → α → Prop} {above : Route} {n m : Node α}

-- All locations in a node are related to the places that they are at.
def Node.Located (rel : Route → α → Prop) (above : Route) (n : Node α) : Prop :=
  ∀ route loc, n.locAt route = some loc → rel (above ++ route) loc

theorem Node.Located.self (h : n.Located rel above) {loc : α} (hloc : n.loc? = some loc) :
    rel above loc := by
  simpa using h [] loc hloc

theorem Node.Located.child (h : n.Located rel above) (d : Descent) (hm : n.child d = some m) :
    m.Located rel (above ++ [d]) := by
  intro route loc hloc
  have hdown : n.locAt (d :: route) = some loc := by
    rw [Node.locAt, Node.descend, hm]
    exact hloc
  simpa using h (d :: route) loc hdown

theorem Node.Located.item {ops : Block α} (h : (Node.block ops).Located rel above) {j : Nat}
    {op : Op α} (hop : ops[j]? = some op) :
    (Node.op op).Located rel (above ++ [.item (0 + j)]) := by
  rw [Nat.zero_add]
  apply h.child (.item j)
  rw [Node.child, hop, Option.map_some]

mutual

theorem Op.routed_alike {above : Route} : (op : Op α) → (Node.op op).Located rel above →
    Op.Alike rel (op.routed above) op
  | .push loc value, _ => .push above loc value
  | .intrinsic _ i, h => .intrinsic i (h.self rfl)
  | .branch _ body chain, h => by
      have hbody := Block.routed_alike 0 body (h.child .body rfl).item
      have hchain := Chain.routed_alike chain (h.child .chain rfl)
      exact .branch (h.self rfl) hbody hchain
  | .loop _ cond _ body, h => by
      have hcond := Block.routed_alike 0 cond (h.child .cond rfl).item
      have hbody := Block.routed_alike 0 body (h.child .body rfl).item
      exact .loop (h.self rfl) hcond hbody

theorem Block.routed_alike {above : Route} (i : Nat) : (ops : List (Op α)) →
    (∀ {j op}, ops[j]? = some op → (Node.op op).Located rel (above ++ [.item (i + j)])) →
    Block.Alike rel (Block.routed above i ops) ops
  | [], _ => .nil
  | op :: ops, h => by
      have hop := Op.routed_alike op (h (j := 0) rfl)
      have hops : Block.Alike rel (Block.routed above (i + 1) ops) ops := by
        apply Block.routed_alike
        intro j other hother
        rw [Nat.add_right_comm, Nat.add_assoc]
        exact h (j := j + 1) hother
      exact .cons hop hops

theorem Chain.routed_alike {above : Route} : (chain : Chain α) →
    (Node.chain chain).Located rel above → Chain.Alike rel (chain.routed above) chain
  | .none, _ => .none
  | .otherwise block, h => .otherwise (Block.routed_alike 0 block (h.child .body rfl).item)
  | .link cond _ inner rest, h => by
      have hcond := Block.routed_alike 0 cond (h.child .cond rfl).item
      have hinner := Block.routed_alike 0 inner (h.child .body rfl).item
      have hrest := Chain.routed_alike rest (h.child .chain rfl)
      exact .link hcond (h.self rfl) hinner hrest

end

theorem Block.routes_alike (root : Block α) :
    Block.Alike (fun route loc => (Node.block root).locAt route = some loc)
      (Block.routes root) root := by
  have hroot : (Node.block root).Located
      (fun route loc => (Node.block root).locAt route = some loc) [] := fun _ _ h => h
  exact Block.routed_alike 0 root hroot.item

-- Places are told by the shape alone.

mutual

theorem Op.routed_erased (above : Route) : (op : Op α) → op.erased.routed above = op.routed above
  | .push _ _ => rfl
  | .intrinsic _ _ => rfl
  | .branch _ body chain => by
      have hbody := Block.routed_erased (above ++ [.body]) 0 body
      have hchain := Chain.routed_erased (above ++ [.chain]) chain
      rw [Op.erased, Op.routed, Op.routed, hbody, hchain]
  | .loop _ cond _ body => by
      have hcond := Block.routed_erased (above ++ [.cond]) 0 cond
      have hbody := Block.routed_erased (above ++ [.body]) 0 body
      rw [Op.erased, Op.routed, Op.routed, hcond, hbody]

theorem Block.routed_erased (above : Route) (i : Nat) : (ops : List (Op α)) →
    Block.routed above i (Block.erased ops) = Block.routed above i ops
  | [] => rfl
  | op :: ops => by
      have hop := Op.routed_erased (above ++ [.item i]) op
      have hops := Block.routed_erased above (i + 1) ops
      rw [Block.erased, Block.routed, Block.routed, hop, hops]

theorem Chain.routed_erased (above : Route) : (chain : Chain α) →
    chain.erased.routed above = chain.routed above
  | .none => rfl
  | .otherwise block => by
      have hblock := Block.routed_erased (above ++ [.body]) 0 block
      rw [Chain.erased, Chain.routed, Chain.routed, hblock]
  | .link cond _ inner rest => by
      have hcond := Block.routed_erased (above ++ [.cond]) 0 cond
      have hinner := Block.routed_erased (above ++ [.body]) 0 inner
      have hrest := Chain.routed_erased (above ++ [.chain]) rest
      rw [Chain.erased, Chain.routed, Chain.routed, hcond, hinner, hrest]

end

theorem Block.routes_of_erased_eq {a : Block α} {b : Block β}
    (h : Block.erased a = Block.erased b) : Block.routes a = Block.routes b := by
  rw [Block.routes, ← Block.routed_erased, h, Block.routed_erased, Block.routes]

-- A run is the run of the places, with the location at each place that is reported.
theorem execute_map_routes (arith : Arithmetic) (budget : Nat) (root : Block α) (stack : Stack) :
    (execute arith budget (Block.routes root) stack).map (Node.block root).locAt =
      (execute arith budget root stack).map some :=
  (execute_alike (Block.routes_alike root) budget stack).map_eq

theorem execute_map_unit (arith : Arithmetic) (budget : Nat) (root : Block α) (stack : Stack) :
    (execute arith budget (Block.routes root) stack).map (fun _ => ()) =
      (execute arith budget root stack).map fun _ => () := by
  have halike : Block.Alike (fun _ _ => () = ()) (Block.routes root) root :=
    Block.routed_alike 0 root fun _ _ _ _ => rfl
  exact (execute_alike halike budget stack).map_eq

theorem execute_of_erased_eq {a : Block α} {b : Block β} (h : Block.erased a = Block.erased b)
    (arith : Arithmetic) (budget : Nat) (stack : Stack) :
    (execute arith budget a stack).map (fun _ => ()) =
      (execute arith budget b stack).map fun _ => () := by
  rw [← execute_map_unit, Block.routes_of_erased_eq h, execute_map_unit]

theorem Event.output_map (f : α → β) (event : Event α) : (event.map f).output = event.output := by
  cases event <;> rfl

theorem Run.output_map (f : α → β) (run : Run α) : (run.map f).output = run.output := by
  simp [Run.output, Run.map, Function.comp_def, Event.output_map]

theorem Run.output_eq_of_map_eq {γ : Type} {f : α → γ} {g : β → γ} {run : Run α} {run' : Run β}
    (h : run.map f = run'.map g) : run.output = run'.output := by
  rw [← Run.output_map f, h, Run.output_map]

-- Tokens with the lexemes of a tree are read as a tree of its shape.
theorem exists_parse_of_lexemes {tokens : List (Token β)} {root : Block α}
    (h : tokens.map Token.lexeme = (Block.spelling root).map Token.lexeme) (loc : β) :
    ∃ again, parse tokens loc = .ok again ∧ Block.erased again = Block.erased root := by
  have hunlocated : parse (tokens.map (Token.map fun _ => ())) () = .ok (Block.erased root) := by
    rw [← parse_erased root, ← h, List.map_map]
    rfl
  rw [parse_map (fun _ => ()) tokens loc] at hunlocated
  cases hagain : parse tokens loc with
  | error d =>
      rw [hagain] at hunlocated
      cases hunlocated
  | ok again =>
      refine ⟨again, rfl, (Block.erased_eq_iff again root).mpr ?_⟩
      rw [spelling_of_parse hagain, ← h, List.map_map]
      exact List.map_congr_left fun _ _ => (Token.lexeme_eq_of_kept rfl).symm

-- A tree and what comes back of its text run alike, from every stack and within every
-- budget: both runs are the run of the places, each with the locations of its own tree.
-- Nor does any other tree of that shape run differently.
theorem execute_reload (root : Block α) (given : String)
    (hgiven : Char.ofNat 0 ∉ given.toList) :
    ∃ again, Block.reload root given = .ok again ∧
      (∀ (arith : Arithmetic) (budget : Nat) (stack : Stack),
        let run := execute arith budget root stack
        let rerun := execute arith budget again stack
        let routes := execute arith budget (Block.routes root) stack
        rerun.output = run.output ∧ rerun.stack = run.stack ∧
          run.map some = routes.map (Node.block root).locAt ∧
          rerun.map some = routes.map (Node.block again).locAt) ∧
      ∀ (β : Type) (other : Block β), Block.erased other = Block.erased root →
        ∀ (arith : Arithmetic) (budget : Nat) (stack : Stack),
          (execute arith budget other stack).map (fun _ => ()) =
            (execute arith budget root stack).map fun _ => () := by
  obtain ⟨tokens, loc, hreload, hlexemes⟩ := Block.reload_eq root hgiven
  obtain ⟨again, hagain, herased⟩ := exists_parse_of_lexemes hlexemes loc
  rw [hagain] at hreload
  refine ⟨again, hreload, ?_, fun β other => execute_of_erased_eq⟩
  intro arith budget stack
  have hunit := execute_of_erased_eq herased arith budget stack
  have hroot := execute_map_routes arith budget root stack
  have hagain := execute_map_routes arith budget again stack
  rw [Block.routes_of_erased_eq herased] at hagain
  exact ⟨Run.output_eq_of_map_eq hunit, congrArg Run.stack hunit, hroot.symm, hagain.symm⟩

theorem execute_reload_linkedSample :
    Char.ofNat 0 ∉ "dumped.txt".toList ∧
    ∃ again, Block.reload linkedSample "dumped.txt" = .ok again ∧
      (∀ (arith : Arithmetic) (budget : Nat) (stack : Stack),
        let run := execute arith budget linkedSample stack
        let rerun := execute arith budget again stack
        let routes := execute arith budget (Block.routes linkedSample) stack
        rerun.output = run.output ∧ rerun.stack = run.stack ∧
          run.map some = routes.map (Node.block linkedSample).locAt ∧
          rerun.map some = routes.map (Node.block again).locAt) ∧
      ∀ (β : Type) (other : Block β), Block.erased other = Block.erased linkedSample →
        ∀ (arith : Arithmetic) (budget : Nat) (stack : Stack),
          (execute arith budget other stack).map (fun _ => ()) =
            (execute arith budget linkedSample stack).map fun _ => () :=
  ⟨by decide, execute_reload linkedSample "dumped.txt" (by decide)⟩

end StackLang
