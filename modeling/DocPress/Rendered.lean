import DocPress.Markup.Basic
import DocPress.Warning

/-!
# Rendered values

A value together with the warnings that came up while it was made. Warnings are only ever added
behind earlier ones, and no value depends on them.
-/

namespace DocPress

set_option autoImplicit false

universe u v

structure Rendered (α : Type u) where
  value : α
  warnings : List Warning

namespace Rendered

variable {α β : Type u}

instance : Monad Rendered where
  pure a := ⟨a, []⟩
  bind x f := ⟨(f x.value).value, x.warnings ++ (f x.value).warnings⟩

@[simp] theorem value_pure (a : α) : (pure a : Rendered α).value = a := rfl

@[simp] theorem warnings_pure (a : α) : (pure a : Rendered α).warnings = [] := rfl

@[simp] theorem value_bind (x : Rendered α) (f : α → Rendered β) :
    (x >>= f).value = (f x.value).value := rfl

@[simp] theorem warnings_bind (x : Rendered α) (f : α → Rendered β) :
    (x >>= f).warnings = x.warnings ++ (f x.value).warnings := rfl

@[ext] theorem ext {x y : Rendered α} (hv : x.value = y.value) (hw : x.warnings = y.warnings) :
    x = y := by
  cases x; cases y; cases hv; cases hw; rfl

@[simp] theorem value_map (f : α → β) (x : Rendered α) : (f <$> x).value = f x.value := rfl

@[simp] theorem warnings_map (f : α → β) (x : Rendered α) : (f <$> x).warnings = x.warnings :=
  List.append_nil _

instance : LawfulMonad Rendered :=
  .mk' Rendered (fun _ => ext rfl (by simp)) (fun _ _ => ext rfl (by simp))
    (fun _ _ _ => ext rfl (by simp))

/-- A value that comes with one warning. -/
def warn (w : Warning) (a : α) : Rendered α := ⟨a, [w]⟩

/-- The values one after the other. -/
def sequence : List (Rendered α) → Rendered (List α)
  | [] => pure []
  | x :: xs => do
    let a ← x
    let as ← sequence xs
    return a :: as

end Rendered

end DocPress
