import FallingSand.Proofs.Script.Closure

/-!
# References

A symbol that an effect places stands for a captured cell or for an atom. Which of the
two it is gets settled when the rule is finished: a symbol that no step of the rule
binds is noted, and at the end of the script there has to be an atom for everything
that was noted. Copies of a rule place what the rule places. So no rule of a compiled
world places a symbol that nothing stands for.
-/

namespace FallingSand

namespace Rule

/-- The symbols under which a rule captures cells. -/
def boundSymbols (rule : Rule) : List String := rule.steps.filterMap Step.boundSymbol?

theorem mem_boundSymbols {rule : Rule} {name : String} :
    name ∈ rule.boundSymbols ↔ ∃ source, Step.bind name source ∈ rule.steps := by
  unfold boundSymbols
  rw [List.mem_filterMap]
  constructor
  · rintro ⟨step, member, bound⟩
    cases step with
    | bind symbol source =>
      cases bound
      exact ⟨source, member⟩
    | map | update => cases bound
  · rintro ⟨source, member⟩
    exact ⟨_, member, rfl⟩

end Rule

namespace Script

namespace Builder

variable {b b' : Builder} {rule : Rule} {symbol : String}

theorem mem_unboundSymbols :
    symbol ∈ unboundSymbols rule ↔ .place symbol ∈ rule.effect ∧ symbol ∉ rule.boundSymbols := by
  unfold unboundSymbols
  rw [List.mem_filterMap]
  constructor
  · rintro ⟨entry, member, free⟩
    cases entry with
    | place name =>
      dsimp only at free
      split at free
      · cases free
      · rename_i unbound
        cases free
        exact ⟨Array.mem_toList_iff.mp member, mt List.contains_iff_mem.mpr unbound⟩
    | keep | anchor | empty => cases free
  · rintro ⟨member, unbound⟩
    refine ⟨_, Array.mem_toList_iff.mpr member, ?_⟩
    exact if_neg (mt List.contains_iff_mem.mp unbound)

/-- The symbols that are noted, whatever the lines. -/
def symbols (b : Builder) : List String := b.references.map Prod.snd

/-- Noting the symbols of a rule adds them and nothing else. -/
theorem mem_symbols_refer :
    symbol ∈ (b.refer rule).symbols ↔ symbol ∈ b.symbols ∨ symbol ∈ unboundSymbols rule := by
  unfold refer symbols
  dsimp only
  generalize b.references = references
  induction unboundSymbols rule generalizing references with
  | nil => simp
  | cons head rest ih =>
    rw [List.foldl_cons, ih, List.mem_cons, ← or_assoc]
    refine or_congr_left ?_
    split
    · rename_i noted
      refine ⟨.inl, ?_⟩
      rintro (old | rfl)
      · exact old
      · exact List.mem_map.mpr ⟨_, List.contains_iff_mem.mp noted, rfl⟩
    · simp

theorem mem_symbols_finish (h : b.finish rule = .ok b') :
    symbol ∈ b'.symbols ↔ symbol ∈ b.symbols ∨ symbol ∈ unboundSymbols rule := by
  obtain ⟨-, rfl⟩ := finish_ok h
  exact mem_symbols_refer

/-- What is noted stays. -/
theorem Next.symbols_subset {index : Nat} {line : List Char} (h : b.Next index line b') :
    b.symbols ⊆ b'.symbols := by
  intro symbol noted
  cases h with
  | endEffect draft rows phase finished | repeatEffect draft rows phase before form finished =>
    exact (mem_symbols_finish finished).mpr (.inl noted)
  | inherit draft found checked =>
    rw [symbols, kept_inherit.2]
    exact noted
  | row | pattern | matchLine | effectLine | endMatch | beginMatch | beginEffect | repeatMatch
    | inheritNothing | change | openPart | closePart | closeAtom | closeRuleset | openAtom
    | openRuleset | global | preload | default => exact noted

/-- Every symbol is noted that some finished rule places and does not bind. -/
def Referred (b : Builder) : Prop :=
  Finished (fun _ => True) (fun rule => unboundSymbols rule ⊆ b.symbols) b

/-- Copies place what the rule places. -/
theorem referredClosure (symbols : List String) :
    RuleClosure (fun _ => True) (fun rule => unboundSymbols rule ⊆ symbols) where
  newAtom _ _ _ _ := trivial
  change _ _ := trivial
  addRules _ _ _ := trivial
  copy _ noted := noted

theorem Referred.next {index : Nat} {line : List Char} (h : b.Next index line b')
    (referred : b.Referred) : b'.Referred := by
  have before : Finished (fun _ => True) (fun rule => unboundSymbols rule ⊆ b'.symbols) b :=
    referred.mono fun rule noted => List.Subset.trans noted h.symbols_subset
  refine before.next (referredClosure _) h (fun _ _ noted => noted) ?_
  intro rule _ finished symbol member
  exact (mem_symbols_finish finished).mpr (.inr member)

end Builder

/-- For every symbol that some rule of a compiled world places and does not bind there is an
atom. -/
theorem placeable_of_compile {source : List Char} {compiled : Compiled}
    (h : compile source = .ok compiled) {atom : AtomType} (member : atom ∈ compiled.world.atoms)
    {rule : Rule} (among : rule ∈ atom.allRules) {symbol : String}
    (placed : .place symbol ∈ rule.effect) (unbound : symbol ∉ rule.boundSymbols) :
    (compiled.world.placeable? symbol).isSome := by
  obtain ⟨kept, b, -, run, -, built⟩ := Builder.exists_build_of_compile h
  obtain ⟨atoms, -, known⟩ := Builder.build_ok built
  have referred : b.Referred :=
    Builder.invariant_of_lines (fun next referred => referred.next next) Finished.start run
  rw [atoms] at member
  have noted := referred.rules_of_mem member rule among
    (Builder.mem_unboundSymbols.mpr ⟨placed, unbound⟩)
  obtain ⟨entry, listed, rfl⟩ := List.mem_map.mp noted
  exact known entry listed

end Script

end FallingSand
