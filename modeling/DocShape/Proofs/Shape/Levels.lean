import DocShape.Proofs.Shape.Parts
import DocShape.Shape.Declaration
import Mathlib.Data.Nat.PSub

/-!
# Levels above a level

What closes a block stands one level above its lines, and above level zero there is no
level.  Subtraction of natural numbers does not tell: it stays at zero.  So the
declarations are written once more with a subtraction that fails there, everything else
being the same.

No declaration needs it at level zero.  Levels only grow on the way into a shape, and
every declaration starts at a level above zero.

* `Shape.block?`, `Shape.multilineUnion?`: the two places that need the level above.
* `Shape.renderAt?`: **declarations that fail where there is no level above**.
* `Shape.renderAt?_eq`: **they never do**, and they are the declarations.
-/

namespace DocShape.Shape

/-! ### Checked declarations -/

/-- `block`, if there is a level above for its closing brace. -/
def block? (layout : Layout) (level : Nat) (lines : List String) : Option String :=
  if lines.isEmpty then some "\x7b\x7d"
  else do
    let outer ← level.ppred
    return "\x7b\n" ++ "\n".intercalate lines ++ "\n" ++ layout.indent outer ++ "\x7d"

/-- `multilineUnion`, if there is a level above for its closing parenthesis. -/
def multilineUnion? (layout : Layout) (level : Nat) (variants : List String) : Option String := do
  let outer ← level.ppred
  return "v.union(\n" ++ String.join (variants.map fun text => layout.indent level ++ text ++ ",\n")
    ++ layout.indent outer ++ ")"

def unionText? (layout : Layout) (level : Nat) (variants : List String) : Option String :=
  if layout.isMultiline variants then multilineUnion? layout level variants
  else some (inlineUnion variants)

mutual

/-- **The declaration of a shape**, if every block in it has a level above. -/
def renderAt? (layout : Layout) (level : Nat) : Shape → Option String
  | literal value => some ("v.literal(" ++ value.text ++ ")")
  | id tableName => some ("v.id(" ++ Text.quote tableName ++ ")")
  | array element => do return "v.array(" ++ (← element.renderAt? layout level) ++ ")"
  | object fields => do
    let lines ← fieldLines? layout level fields
    return "v.object(" ++ (← block? layout level lines) ++ ")"
  | record keys values optional => do
    let keys ← keys.renderAt? layout level
    let values ← values.renderAt? layout level
    return "v.record(" ++ keys ++ ", " ++ markOptional optional values ++ ")"
  | union variants => do
    let expanded ← renderAllAt? layout (level + 1) variants
    if layout.isMultiline expanded then multilineUnion? layout level expanded
    else return inlineUnion (← renderAllAt? layout level variants)
  | leaf => some leaf.leafText

def fieldLines? (layout : Layout) (level : Nat) : List (Field Shape) → Option (List String)
  | [] => some []
  | field :: rest =>
    if field.isSystem then fieldLines? layout level rest
    else do
      let text ← field.shape.renderAt? layout (level + 1)
      return fieldLine layout level field.name field.optional text
        :: (← fieldLines? layout level rest)

def renderAllAt? (layout : Layout) (level : Nat) : List Shape → Option (List String)
  | [] => some []
  | shape :: rest => do
    let text ← shape.renderAt? layout level
    return text :: (← renderAllAt? layout level rest)

end

def render? (layout : Layout) (shape : Shape) : Option String := shape.renderAt? layout 1

/-! ### Above level zero -/

section

variable (layout : Layout) (level : Nat)

theorem block?_succ (lines : List String) :
    block? layout (level + 1) lines = some (block layout (level + 1) lines) := by
  unfold block? block
  split <;> rfl

/-- Without lines a block needs no level above. -/
theorem block?_eq_none_iff (lines : List String) :
    block? layout level lines = none ↔ level = 0 ∧ lines ≠ [] := by
  cases level with
  | zero => cases lines <;> simp [block?]
  | succ level => simp [block?_succ]

theorem multilineUnion?_succ (variants : List String) :
    multilineUnion? layout (level + 1) variants =
      some (multilineUnion layout (level + 1) variants) := rfl

theorem multilineUnion?_eq_none_iff (variants : List String) :
    multilineUnion? layout level variants = none ↔ level = 0 := by
  cases level with
  | zero => simp [multilineUnion?]
  | succ level => simp [multilineUnion?_succ]

theorem unionText?_succ (variants : List String) :
    unionText? layout (level + 1) variants = some (unionText layout (level + 1) variants) := by
  unfold unionText? unionText
  split <;> rfl

variable {layout level}

theorem fieldLines?_eq {fields : List (Field Shape)}
    (h : ∀ field ∈ fields, field.shape.renderAt? layout (level + 1) =
      some (field.shape.renderAt layout (level + 1))) :
    fieldLines? layout level fields = some (fieldLines layout level fields) := by
  induction fields with
  | nil => rfl
  | cons field rest ih =>
    rw [List.forall_mem_cons] at h
    rw [fieldLines?, fieldLines, h.1, ih h.2]
    cases field.isSystem <;> rfl

theorem renderAllAt?_eq {shapes : List Shape}
    (h : ∀ shape ∈ shapes, shape.renderAt? layout level = some (shape.renderAt layout level)) :
    renderAllAt? layout level shapes = some (renderAllAt layout level shapes) := by
  induction shapes with
  | nil => rfl
  | cons shape rest ih =>
    rw [List.forall_mem_cons] at h
    rw [renderAllAt?, renderAllAt, h.1, ih h.2]
    rfl

end

/-- **Above level zero there is always a level above.** -/
theorem renderAt?_eq (layout : Layout) (shape : Shape) : ∀ level,
    shape.renderAt? layout (level + 1) = some (shape.renderAt layout (level + 1)) := by
  induction shape using Shape.ind with
  | array element ih =>
    intro level
    rw [renderAt?, renderAt, ih]
    rfl
  | object fields ih =>
    intro level
    have hlines := fieldLines?_eq fun field hfield => ih field hfield (level + 1)
    rw [renderAt?, renderAt, hlines, Option.bind_eq_bind, Option.bind_some, block?_succ]
    rfl
  | record keys values optional ihkeys ihvalues =>
    intro level
    rw [renderAt?, renderAt, ihkeys, ihvalues]
    rfl
  | union variants ih =>
    intro level
    -- The variants are written one level deeper first, to see whether they fit on one line.
    have hexpanded := renderAllAt?_eq fun variant hvariant => ih variant hvariant (level + 1)
    have hinline := renderAllAt?_eq fun variant hvariant => ih variant hvariant level
    rw [renderAt?, renderAt, hexpanded, hinline, Option.bind_eq_bind, Option.bind_some]
    split <;> rfl
  | _ => exact fun _ => rfl

end DocShape.Shape
