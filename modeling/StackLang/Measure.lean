-- The size of a list, measured by the sizes of its members.

namespace StackLang

variable {α : Type}

def total (size : α → Nat) : List α → Nat
  | [] => 0
  | a :: rest => size a + total size rest

@[simp] theorem total_nil (size : α → Nat) : total size [] = 0 := rfl

@[simp] theorem total_cons (size : α → Nat) (a : α) (rest : List α) :
    total size (a :: rest) = size a + total size rest := rfl

@[simp] theorem total_append (size : α → Nat) (a b : List α) :
    total size (a ++ b) = total size a + total size b := by
  induction a with
  | nil => simp
  | cons x a ih => rw [List.cons_append, total_cons, ih, total_cons, Nat.add_assoc]

end StackLang
