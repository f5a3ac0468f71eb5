import Bilisp.Diagnostic.Basic

/-!
# Feeds

A feed hands out items one by one and ends in a closing value or in a fault. What was handed out before a
fault stays.
-/

namespace Bilisp

/-- Items that end in a value or in a fault. -/
inductive Feed (α β : Type) where
  | done (closing : β)
  | failed (fault : Fault)
  | next (item : α) (rest : Feed α β)

namespace Feed

variable {α β γ : Type}

/-- The items handed out. -/
def items : Feed α β → List α
  | .done _ => []
  | .failed _ => []
  | .next item rest => item :: items rest

/-- How many items are handed out. -/
def length (feed : Feed α β) : Nat := feed.items.length

@[simp] theorem length_next (item : α) (rest : Feed α β) : (next item rest).length = rest.length + 1 := rfl

/-- How the feed ends. -/
def ending : Feed α β → Except Fault β
  | .done closing => .ok closing
  | .failed fault => .error fault
  | .next _ rest => ending rest

/-- The results for all items in order. The fault of an item comes before every fault behind it. -/
def collect (f : α → Except Fault γ) : Feed α β → Except Fault (List γ)
  | .done _ => .ok []
  | .failed fault => .error fault
  | .next item rest => do return (← f item) :: (← collect f rest)

end Feed

end Bilisp
