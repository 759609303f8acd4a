/-!
# `Lib.Names` — directories by name

A directory is a function from names to what stands under them; an operation on one entry is `setName`.
-/

/-- Change one entry of a directory. -/
def setName {α : Type} (f : String → α) (name : String) (a : α) : String → α := fun x => if x = name then a else f x

section
variable {α : Type} (f : String → α) {name other : String} (a : α)

@[simp] theorem setName_self : setName f name a name = a := by simp [setName]

@[simp] theorem setName_ne (h : other ≠ name) : setName f name a other = f other := by simp [setName, h]

@[simp] theorem setName_get : setName f name (f name) = f := by
  funext x
  by_cases h : x = name <;> simp [setName, h]

end
