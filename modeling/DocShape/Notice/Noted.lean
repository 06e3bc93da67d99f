import DocShape.Notice.Basic

/-!
# Results with notices

A result together with the notices that were given on the way to it. The result never depends on
notices: they are only collected, in order.
-/

namespace DocShape

/-- A result and the notices given on the way to it. -/
structure Noted (α : Type) where
  value : α
  notices : List Notice

namespace Noted

variable {α β : Type}

/-- The result of a step after another one, with the notices of both. -/
def andThen (x : Noted α) (f : α → Noted β) : Noted β :=
  let y := f x.value
  ⟨y.value, x.notices ++ y.notices⟩

instance : Monad Noted where
  pure a := ⟨a, []⟩
  bind := andThen

/-- A result with one more notice. -/
def note (x : Noted α) (notice : Notice) : Noted α := ⟨x.value, x.notices ++ [notice]⟩

/-- One result for each element, with all notices in order. -/
def traverse (f : α → Noted β) (xs : List α) : Noted (List β) :=
  let ys := xs.map f
  ⟨ys.map (·.value), ys.flatMap (·.notices)⟩

@[simp] theorem value_pure (a : α) : (pure a : Noted α).value = a := rfl

@[simp] theorem notices_pure (a : α) : (pure a : Noted α).notices = [] := rfl

@[simp] theorem value_bind (x : Noted α) (f : α → Noted β) :
    (x >>= f).value = (f x.value).value := rfl

@[simp] theorem notices_bind (x : Noted α) (f : α → Noted β) :
    (x >>= f).notices = x.notices ++ (f x.value).notices := rfl

@[simp] theorem value_map (f : α → β) (x : Noted α) : (f <$> x).value = f x.value := rfl

@[simp] theorem notices_map (f : α → β) (x : Noted α) : (f <$> x).notices = x.notices := by
  change x.notices ++ [] = x.notices
  simp

@[simp] theorem value_note (x : Noted α) (notice : Notice) : (x.note notice).value = x.value := rfl

@[simp] theorem notices_note (x : Noted α) (notice : Notice) :
    (x.note notice).notices = x.notices ++ [notice] := rfl

@[simp] theorem value_traverse (f : α → Noted β) (xs : List α) :
    (traverse f xs).value = xs.map fun x => (f x).value := by
  simp [traverse]

@[simp] theorem notices_traverse (f : α → Noted β) (xs : List α) :
    (traverse f xs).notices = xs.flatMap fun x => (f x).notices := by
  simp [traverse, List.flatMap_map]

end Noted

end DocShape
