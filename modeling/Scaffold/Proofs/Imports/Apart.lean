import Scaffold.Proofs.Imports.Groups

/-! New imports that come to the same place among those that are there. -/

namespace Scaffold

open Go

variable {setting : Option String}

/--
Whether two new imports come to the same place: one begins a group, and the other one is put in
front of the group behind it.
-/
def Meets (setting : Option String) (held : List Import) (lower leading : Import) : Prop :=
  (importGroup setting lower.path).rank < (importGroup setting leading.path).rank ∧
  (∃ other ∈ held, importGroup setting other.path = importGroup setting leading.path) ∧
  ∀ other ∈ held, (importGroup setting other.path).rank < (importGroup setting lower.path).rank ∨
    (importGroup setting leading.path).rank < (importGroup setting other.path).rank ∨
    importGroup setting other.path = importGroup setting leading.path ∧ leading.path < other.path

/-- No two new imports come to the same place. -/
def KeepApart (setting : Option String) (held new : List Import) : Prop :=
  ∀ lower ∈ new, ∀ leading ∈ new, ¬Meets setting held lower leading

instance (setting : Option String) (held : List Import) (lower leading : Import) :
    Decidable (Meets setting held lower leading) :=
  inferInstanceAs (Decidable (_ ∧ _))

instance (setting : Option String) (held new : List Import) :
    Decidable (KeepApart setting held new) :=
  inferInstanceAs (Decidable (∀ lower ∈ new, ∀ leading ∈ new, ¬Meets setting held lower leading))

section Apart

variable {held others wanted new : List Import}

/-- Only which imports are there matters to new ones. -/
theorem keepApart_congr (same : ∀ needed, needed ∈ held ↔ needed ∈ others) :
    KeepApart setting held new ↔ KeepApart setting others new := by
  simp only [KeepApart, Meets, same]

/-- Imports that come to the same place are both new. -/
theorem Meets.not_mem {lower leading : Import} (meets : Meets setting held lower leading) :
    lower ∉ held ∧ leading ∉ held := by
  obtain ⟨less, -, all⟩ := meets
  refine ⟨fun member => ?_, fun member => ?_⟩
  · rcases all lower member with before | behind | ⟨same, -⟩
    · omega
    · omega
    · exact ne_of_rank_lt less same
  · rcases all leading member with before | behind | ⟨-, before⟩
    · omega
    · omega
    · exact lt_irrefl _ before

/-- Imports that are there already keep apart from the others. -/
theorem keepApart_of_new (missing : ∀ needed, needed ∈ new ↔ needed ∈ wanted ∧ needed ∉ held) :
    KeepApart setting held new ↔ KeepApart setting held wanted := by
  constructor
  · intro apart lower one leading other meets
    obtain ⟨front, back⟩ := meets.not_mem
    exact apart lower ((missing lower).mpr ⟨one, front⟩) leading ((missing leading).mpr
      ⟨other, back⟩) meets
  · intro apart lower one leading other
    exact apart lower ((missing lower).mp one).1 leading ((missing leading).mp other).1

end Apart

section Groups

variable {group : ImportGroup × List Import} {groups : List (ImportGroup × List Import)}

/-- Two new imports come to the same place in front of the first group, or behind it. -/
theorem meets_cons (are : AreGroups setting (group :: groups)) (lower leading : Import) :
    Meets setting ((group :: groups).flatMap Prod.snd) lower leading ↔
      ((importGroup setting lower.path).rank < group.1.rank ∧
        importGroup setting leading.path = group.1 ∧ ∀ other ∈ group.2, leading.path < other.path) ∨
      group.1.rank < (importGroup setting lower.path).rank ∧
        Meets setting (groups.flatMap Prod.snd) lower leading := by
  have own := are.own group (by simp)
  have above := are.above
  obtain ⟨first, held⟩ := List.exists_mem_of_ne_nil _ (are.filled group (by simp))
  simp only [Meets, List.flatMap_cons, List.mem_append]
  constructor
  · rintro ⟨less, ⟨same, member, joins⟩, all⟩
    -- The first import that is there tells where the two stand.
    have front := all first (.inl held)
    rw [own first held] at front
    rcases front with before | behind | ⟨leads, -⟩
    · refine .inr ⟨before, less, ⟨same, member.resolve_left fun inside => ?_, joins⟩,
        fun other inside => all other (.inr inside)⟩
      rw [← joins, own same inside] at less
      omega
    · rcases member with inside | inside
      · rw [← joins, own same inside] at behind
        omega
      · have := above same inside
        rw [joins] at this
        omega
    · refine .inl ⟨by rwa [leads], leads.symm, fun other inside => ?_⟩
      have place := all other (.inl inside)
      rw [own other inside, ← leads] at place
      rcases place with before | behind | ⟨-, less'⟩
      · rw [← leads] at less
        omega
      · omega
      · exact less'
  · rintro (⟨below, leads, before⟩ | ⟨before, less, ⟨same, member, joins⟩, all⟩)
    · refine ⟨by rwa [leads], ⟨first, .inl held, by rw [own first held, leads]⟩, ?_⟩
      rintro other (inside | inside)
      · exact .inr (.inr ⟨by rw [own other inside, leads], before other inside⟩)
      · exact .inr (.inl (by rw [leads]; exact above other inside))
    · refine ⟨less, ⟨same, .inr member, joins⟩, ?_⟩
      rintro other (inside | inside)
      · exact .inl (by rwa [own other inside])
      · exact all other inside

/-- New imports keep apart if they do so in front of the first group and behind it. -/
theorem keepApart_cons (are : AreGroups setting (group :: groups)) (new : List Import) :
    KeepApart setting ((group :: groups).flatMap Prod.snd) new ↔
      (∀ lower ∈ belowGroup setting group.1 new, ∀ leading ∈ ofGroup setting group.1 new,
        ¬∀ other ∈ group.2, leading.path < other.path) ∧
      KeepApart setting (groups.flatMap Prod.snd) (aboveGroup setting group.1 new) := by
  simp only [KeepApart, meets_cons are, belowGroup, ofGroup, aboveGroup, List.mem_filter, not_or,
    decide_eq_true_eq, beq_iff_eq]
  constructor
  · intro all
    refine ⟨fun lower one leading other before => ?_, fun lower one leading other meets => ?_⟩
    · exact (all lower one.1 leading other.1).1 ⟨one.2, other.2, before⟩
    · exact (all lower one.1 leading other.1).2 ⟨one.2, meets⟩
  · rintro ⟨front, behind⟩ lower one leading other
    refine ⟨fun meets => ?_, fun meets => ?_⟩
    · exact front lower ⟨one, meets.1⟩ leading ⟨other, meets.2.1⟩ meets.2.2
    · exact behind lower ⟨one, meets.1⟩ leading ⟨other, meets.1.trans meets.2.1⟩ meets.2

end Groups

end Scaffold
