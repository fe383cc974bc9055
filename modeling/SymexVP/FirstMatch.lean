import Mathlib.Tactic

/-!
# The leftmost rule that matches

A list of rules is applied to the targets each rule hits, and a target belongs to the
leftmost rule that hits it. Whoever works through the list from the left has to remember
what was hit. If only some rules are remembered, a target may be served again behind a
rule that is forgotten.
-/

namespace SymexVP.FirstMatch

variable {ρ τ : Type} (hits : ρ → τ → Prop) (remembered : ρ → Prop)

/-- The rule at `index` is the leftmost one that hits `target`. -/
def Leftmost (rules : List ρ) (index : Nat) (target : τ) : Prop :=
  ∃ rule, rules[index]? = some rule ∧ hits rule target ∧
    ∀ i earlier, i < index → rules[i]? = some earlier → ¬hits earlier target

/-- The rule at `index` hits `target`, and no remembered rule in front of it does. -/
def Served (rules : List ρ) (index : Nat) (target : τ) : Prop :=
  ∃ rule, rules[index]? = some rule ∧ hits rule target ∧
    ∀ i earlier, i < index → rules[i]? = some earlier → remembered earlier → ¬hits earlier target

/-- A rule that is forgotten and a later one share no target, except those that a remembered
rule has hit before either. -/
def Covered (rules : List ρ) : Prop :=
  ∀ (first second : Nat) forgotten later target, first < second →
    rules[first]? = some forgotten → rules[second]? = some later → ¬remembered forgotten →
    hits forgotten target → hits later target →
    ∃ i earlier, i < first ∧ rules[i]? = some earlier ∧ remembered earlier ∧ hits earlier target

variable {hits remembered} {rules : List ρ} {rule : ρ} {index : Nat} {target : τ}

theorem Leftmost.served (leftmost : Leftmost hits rules index target) :
    Served hits remembered rules index target := by
  obtain ⟨rule, found, hit, unhit⟩ := leftmost
  exact ⟨rule, found, hit, fun i earlier before at_ _ => unhit i earlier before at_⟩

/-- No target has two leftmost rules. -/
theorem Leftmost.not_lt {index' : Nat} (leftmost : Leftmost hits rules index target)
    (leftmost' : Leftmost hits rules index' target) : ¬index < index' := by
  intro before
  obtain ⟨rule, found, hit, -⟩ := leftmost
  obtain ⟨-, -, -, unhit⟩ := leftmost'
  exact unhit index rule before found hit

theorem Leftmost.of_isPrefix {more : List ρ} (front : rules <+: more)
    (inside : index < rules.length) :
    Leftmost hits more index target ↔ Leftmost hits rules index target := by
  obtain ⟨rest, rfl⟩ := front
  have same : ∀ i ≤ index, (rules ++ rest)[i]? = rules[i]? :=
    fun i before => List.getElem?_append_left (by omega)
  constructor
  · rintro ⟨rule, found, hit, unhit⟩
    refine ⟨rule, same index le_rfl ▸ found, hit, ?_⟩
    intro i earlier before at_
    exact unhit i earlier before (by rw [same i before.le, at_])
  · rintro ⟨rule, found, hit, unhit⟩
    refine ⟨rule, by rw [same index le_rfl, found], hit, ?_⟩
    intro i earlier before at_
    exact unhit i earlier before (by rw [← same i before.le, at_])

theorem served_zero : Served hits remembered (rule :: rules) 0 target ↔ hits rule target := by
  constructor
  · rintro ⟨other, found, hit, -⟩
    cases found
    exact hit
  · intro hit
    exact ⟨rule, rfl, hit, fun i earlier before => absurd before (Nat.not_lt_zero i)⟩

theorem served_succ : Served hits remembered (rule :: rules) (index + 1) target ↔
    (remembered rule → ¬hits rule target) ∧ Served hits remembered rules index target := by
  constructor
  · rintro ⟨other, found, hit, unhit⟩
    refine ⟨unhit 0 rule (Nat.succ_pos index) rfl, other, found, hit, ?_⟩
    intro i earlier before at_
    exact unhit (i + 1) earlier (Nat.succ_lt_succ before) at_
  · rintro ⟨head, other, found, hit, unhit⟩
    refine ⟨other, found, hit, ?_⟩
    intro i earlier before at_
    cases i with
    | zero =>
        cases at_
        exact head
    | succ i => exact unhit i earlier (Nat.lt_of_succ_lt_succ before) at_

theorem Served.leftmost (covered : Covered hits remembered rules)
    (served : Served hits remembered rules index target) : Leftmost hits rules index target := by
  obtain ⟨rule, found, hit, unhit⟩ := served
  refine ⟨rule, found, hit, ?_⟩
  intro i earlier before at_ hitEarlier
  by_cases known : remembered earlier
  · exact unhit i earlier before at_ known hitEarlier
  · obtain ⟨j, other, first, place, named, hitOther⟩ :=
      covered i index earlier rule target before at_ found known hitEarlier hit
    exact unhit j other (first.trans before) place named hitOther

/-- If the forgotten rules are not covered, a target of one of them is served again. -/
theorem covered_of_leftmost
    (leftmost : ∀ index target, Served hits remembered rules index target →
      Leftmost hits rules index target) : Covered hits remembered rules := by
  intro first second forgotten later target before found found' unknown hit hit'
  by_contra uncovered
  -- The next remembered rule that hits the target, or else the later rule, serves it.
  induction second using Nat.strong_induction_on generalizing later with
  | _ second inductionHypothesis =>
      have served : Served hits remembered rules second target := by
        refine ⟨later, found', hit', ?_⟩
        intro i earlier earlier_lt at_ known hitEarlier
        rcases Nat.lt_trichotomy i first with before' | rfl | behind
        · exact uncovered ⟨i, earlier, before', at_, known, hitEarlier⟩
        · rw [found] at at_
          cases at_
          exact unknown known
        · exact inductionHypothesis i earlier_lt earlier behind at_ hitEarlier
      obtain ⟨-, -, -, unhit⟩ := leftmost second target served
      exact unhit first forgotten before found hit

/-- What is served is served by its leftmost rule exactly if the forgotten rules are covered. -/
theorem served_imp_leftmost_iff :
    (∀ index target, Served hits remembered rules index target →
      Leftmost hits rules index target) ↔ Covered hits remembered rules := by
  constructor
  · exact covered_of_leftmost
  · intro covered index target served
    exact served.leftmost covered

end SymexVP.FirstMatch
