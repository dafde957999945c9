import Mathlib.Data.List.Nodup
import Mathlib.Logic.Function.Basic

/-!
# Renamings performed one after another

A renaming replaces one name by another. Several of them in a row can chain, when
a later one renames what an earlier one introduced. If no renaming introduces a
stale name they cannot: then the whole row is one simultaneous substitution, in
which the first renaming of each name counts. Such a row can be repeated without
effect, and reordered as long as no name is renamed twice.
-/

universe u

structure Renaming (A : Type u) where
  stale : A
  resolved : A
deriving DecidableEq

namespace Renaming

variable {A : Type u}

/-- No renaming introduces a name that one of them renames. -/
def Settled (rules : List (Renaming A)) : Prop :=
  ∀ rule ∈ rules, ∀ other ∈ rules, rule.resolved ≠ other.stale

theorem Settled.perm {rules others : List (Renaming A)} (settled : Settled rules)
    (perm : others.Perm rules) : Settled others := fun rule member other otherMem =>
  settled rule (perm.mem_iff.mp member) other (perm.mem_iff.mp otherMem)

variable [DecidableEq A]

def apply (rule : Renaming A) : A → A :=
  Function.update id rule.stale rule.resolved

def applyAll (rules : List (Renaming A)) (name : A) : A :=
  rules.foldl (fun name rule => rule.apply name) name

/-- The first of the renamings of a name. -/
def first? (name : A) (rules : List (Renaming A)) : Option (Renaming A) :=
  rules.find? fun rule => rule.stale = name

@[simp]
theorem applyAll_nil (name : A) : applyAll [] name = name :=
  rfl

@[simp]
theorem applyAll_cons (rule : Renaming A) (rest : List (Renaming A)) (name : A) :
    applyAll (rule :: rest) name = applyAll rest (rule.apply name) :=
  rfl

theorem apply_stale (rule : Renaming A) : rule.apply rule.stale = rule.resolved :=
  Function.update_self ..

theorem apply_of_ne {rule : Renaming A} {name : A} (ne : name ≠ rule.stale) :
    rule.apply name = name :=
  Function.update_of_ne ne ..

theorem applyAll_of_forall_ne {rules : List (Renaming A)} {name : A}
    (ne : ∀ rule ∈ rules, rule.stale ≠ name) : applyAll rules name = name := by
  induction rules with
  | nil => rfl
  | cons rule rest ih =>
      rw [applyAll_cons, apply_of_ne (ne rule List.mem_cons_self).symm]
      exact ih fun other otherMem => ne other (List.mem_cons_of_mem _ otherMem)

/-- Settled renamings are one substitution: each name goes where its first renaming sends it. -/
theorem applyAll_eq_of_settled {rules : List (Renaming A)} (settled : Settled rules)
    (name : A) : applyAll rules name = ((first? name rules).map resolved).getD name := by
  induction rules with
  | nil => rfl
  | cons rule rest ih =>
      have restSettled : Settled rest := fun other otherMem another anotherMem =>
        settled other (List.mem_cons_of_mem _ otherMem) another (List.mem_cons_of_mem _ anotherMem)
      rw [applyAll_cons, first?, List.find?_cons]
      by_cases stale : rule.stale = name
      · subst stale
        rw [apply_stale, decide_eq_true rfl, applyAll_of_forall_ne]
        · rfl
        · intro other otherMem
          exact (settled rule List.mem_cons_self other
            (List.mem_cons_of_mem _ otherMem)).symm
      · rw [apply_of_ne (Ne.symm stale), decide_eq_false stale]
        exact ih restSettled

theorem first?_eq_none_iff {name : A} {rules : List (Renaming A)} :
    first? name rules = none ↔ ∀ rule ∈ rules, rule.stale ≠ name := by
  simp [first?]

theorem of_first?_eq_some {name : A} {rules : List (Renaming A)} {rule : Renaming A}
    (found : first? name rules = some rule) :
    rule ∈ rules ∧ rule.stale = name :=
  ⟨List.mem_of_find?_eq_some found, by simpa using List.find?_some found⟩

/-- After settled renamings the stale names are gone. -/
theorem applyAll_ne_stale {rules : List (Renaming A)} (settled : Settled rules)
    {rule : Renaming A} (member : rule ∈ rules) (name : A) :
    applyAll rules name ≠ rule.stale := by
  rw [applyAll_eq_of_settled settled]
  cases found : first? name rules with
  | none => exact (first?_eq_none_iff.mp found rule member).symm
  | some other => exact settled other (of_first?_eq_some found).1 rule member

theorem first?_eq_some_iff_of_nodup {rules : List (Renaming A)}
    (nodup : (rules.map stale).Nodup) {name : A} {rule : Renaming A} :
    first? name rules = some rule ↔ rule ∈ rules ∧ rule.stale = name := by
  constructor
  · exact of_first?_eq_some
  · rintro ⟨member, rfl⟩
    cases found : first? rule.stale rules with
    | none => exact absurd rfl (first?_eq_none_iff.mp found rule member)
    | some other =>
        rcases of_first?_eq_some found with ⟨otherMem, sameStale⟩
        rw [List.inj_on_of_nodup_map nodup otherMem member sameStale]

/-- Settled renamings of different names can be performed in any order. -/
theorem applyAll_perm {rules others : List (Renaming A)} (settled : Settled rules)
    (nodup : (rules.map stale).Nodup) (perm : others.Perm rules) (name : A) :
    applyAll others name = applyAll rules name := by
  have othersNodup : (others.map stale).Nodup := (perm.map stale).nodup_iff.mpr nodup
  have sameFirst : first? name others = first? name rules := by
    apply Option.ext
    intro rule
    rw [first?_eq_some_iff_of_nodup othersNodup, first?_eq_some_iff_of_nodup nodup, perm.mem_iff]
  rw [applyAll_eq_of_settled (settled.perm perm), applyAll_eq_of_settled settled, sameFirst]

end Renaming
