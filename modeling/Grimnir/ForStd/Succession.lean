import Mathlib.Logic.Relation
import Mathlib.Logic.ExistsUnique

/-!
# Chains of successors

A relation in which every element has at most one successor and no chain goes on for
ever: the versions of a record, the retries of a task.  From every element exactly one
end of chain is reached.

## Key results

- `existsUnique_last`: every chain has exactly one end
- `wellFounded_of_bounded`: increasing numbers below a bound form such chains
-/

namespace Succession

variable {α : Type} {r : α → α → Prop}

/-- Following successors ends somewhere. -/
theorem exists_last (hwf : WellFounded (Function.swap r)) (a : α) :
    ∃ m, Relation.ReflTransGen r a m ∧ ∀ b, ¬r m b := by
  induction a using hwf.induction with
  | h a ih =>
    by_cases hsucc : ∃ b, r a b
    · obtain ⟨b, hab⟩ := hsucc
      obtain ⟨m, hbm, hlast⟩ := ih b hab
      exact ⟨m, Relation.ReflTransGen.head hab hbm, hlast⟩
    · exact ⟨a, .refl, fun b hab => hsucc ⟨b, hab⟩⟩

/-- From an end of a chain only the end itself is reached. -/
theorem eq_of_last {m b : α} (hlast : ∀ b, ¬r m b) (h : Relation.ReflTransGen r m b) :
    m = b := by
  rcases h.cases_head with heq | ⟨c, hmc, -⟩
  · exact heq
  · exact absurd hmc (hlast c)

/-- With at most one successor each, two ends of one chain are the same. -/
theorem last_unique (hfun : Relator.RightUnique r) {a m m' : α}
    (hm : Relation.ReflTransGen r a m) (hm' : Relation.ReflTransGen r a m')
    (hlast : ∀ b, ¬r m b) (hlast' : ∀ b, ¬r m' b) : m = m' := by
  -- one of the two ends is reached from the other
  rcases Relation.ReflTransGen.total_of_right_unique hfun hm hm' with h | h
  · exact eq_of_last hlast h
  · exact (eq_of_last hlast' h).symm

/-- Every chain has exactly one end. -/
theorem existsUnique_last (hwf : WellFounded (Function.swap r)) (hfun : Relator.RightUnique r)
    (a : α) : ∃! m, Relation.ReflTransGen r a m ∧ ∀ b, ¬r m b := by
  obtain ⟨m, hm, hlast⟩ := exists_last hwf a
  refine ⟨m, ⟨hm, hlast⟩, ?_⟩
  rintro m' ⟨hm', hlast'⟩
  exact last_unique hfun hm' hm hlast' hlast

/-- Numbers that grow from each to its successor, all below a bound. -/
theorem wellFounded_of_bounded {r : Nat → Nat → Prop} (n : Nat)
    (hinc : ∀ a b, r a b → a < b) (hbelow : ∀ a b, r a b → b < n) :
    WellFounded (Function.swap r) := by
  refine Subrelation.wf (r := fun b a => n - b < n - a) ?_ (measure fun a => n - a).wf
  intro b a hab
  have hlt := hinc a b hab
  have hbound := hbelow a b hab
  show n - b < n - a
  omega

end Succession
