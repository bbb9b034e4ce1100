/-!
# Totals

`total measure items` adds up a measure over a list.
-/

namespace ProtoFront

/-- The measure of all items together. -/
def total {α : Type} (measure : α → Nat) : List α → Nat
  | [] => 0
  | item :: rest => measure item + total measure rest

variable {α β : Type} (measure : α → Nat)

@[simp] theorem total_nil : total measure [] = 0 := rfl

@[simp] theorem total_cons (item : α) (rest : List α) :
    total measure (item :: rest) = measure item + total measure rest := rfl

@[simp] theorem total_append (items more : List α) :
    total measure (items ++ more) = total measure items + total measure more := by
  induction items with
  | nil => simp
  | cons item rest ih => simp [ih, Nat.add_assoc]

@[simp] theorem total_reverse (items : List α) :
    total measure items.reverse = total measure items := by
  induction items with
  | nil => rfl
  | cons item rest ih => simp [ih, Nat.add_comm]

@[simp] theorem total_map (convert : β → α) (items : List β) :
    total measure (items.map convert) = total (fun item => measure (convert item)) items := by
  induction items with
  | nil => rfl
  | cons item rest ih => simp [ih]

end ProtoFront
