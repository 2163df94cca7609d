import DirectoryRights.Proofs.Acceptance

/-!
# Slots of a catalog

A catalog that grows by definitions hands out the number of slots in use as the next slot. So every
slot in use is below this number, and no two rights of the catalog have the same one. A right that
is only spelled out by its name has none.
-/

set_option autoImplicit false

namespace DirectoryRights.Catalog

/-- The slots of a catalog are handed out in order, and no slot twice. -/
structure Slotted (c : Catalog) : Prop where
  /-- The slots in use are below their number. -/
  below : ∀ r ∈ c.rights, ∀ slot, r.label.slot = some slot → slot < c.slotsUsed
  /-- A slot belongs to one right. -/
  unique : ∀ r ∈ c.rights, ∀ s ∈ c.rights, ∀ slot, r.label.slot = some slot →
    s.label.slot = some slot → r = s

/-- In the empty catalog no slot is handed out. -/
theorem slotted_empty : empty.Slotted := by
  constructor
  · intro r hr
    cases hr
  · intro r hr
    cases hr

/-- A right with a slot is one more slot in use. -/
theorem slotsUsed_push (c : Catalog) (right : Right) :
    (c.push right).slotsUsed = c.slotsUsed + if right.label.slot.isSome then 1 else 0 := by
  unfold slotsUsed push
  rw [List.countP_append, List.countP_singleton]

/-- One more right with the next slot, or without one, keeps the slots in order. -/
theorem Slotted.push {c : Catalog} (h : c.Slotted) {right : Right}
    (hslot : right.label.slot = none ∨ right.label.slot = some c.slotsUsed) :
    (c.push right).Slotted := by
  have hnew : ∀ slot, right.label.slot = some slot → slot = c.slotsUsed := by
    intro slot hsome
    rcases hslot with hnone | hnext
    · rw [hnone] at hsome
      cases hsome
    · rw [hnext] at hsome
      exact (Option.some.inj hsome).symm
  constructor
  · intro r hr slot hsome
    rw [slotsUsed_push]
    rcases List.mem_append.mp hr with hold | hlast
    · have := h.below r hold slot hsome
      omega
    · rw [List.mem_singleton] at hlast
      rw [hlast] at hsome
      rw [hsome, hnew slot hsome]
      simp
  · intro r hr s hs slot hrslot hsslot
    rcases List.mem_append.mp hr with hrold | hrlast
    · rcases List.mem_append.mp hs with hsold | hslast
      · exact h.unique r hrold s hsold slot hrslot hsslot
      · rw [List.mem_singleton] at hslast
        rw [hslast] at hsslot
        have hlt := h.below r hrold slot hrslot
        have heq := hnew slot hsslot
        omega
    · rw [List.mem_singleton] at hrlast
      rcases List.mem_append.mp hs with hsold | hslast
      · rw [hrlast] at hrslot
        have hlt := h.below s hsold slot hsslot
        have heq := hnew slot hrslot
        omega
      · rw [List.mem_singleton] at hslast
        rw [hrlast, hslast]

/-- An accepted right has the next slot, or none. -/
theorem slot_of_accept {c : Catalog} {d : Definition} {right : Right}
    (h : c.accept d = .ok right) :
    right.label.slot = none ∨ right.label.slot = some c.slotsUsed := by
  have hslot : right.label.slot = if d.cache then some c.slotsUsed else none :=
    congrArg Label.slot (accept_eq_ok h).2.1.label
  rw [hslot]
  by_cases hcache : d.cache = true
  · rw [if_pos hcache]
    exact .inr rfl
  · rw [if_neg hcache]
    exact .inl rfl

/-- What holds of the catalog without rights, and of a catalog with one more accepted right if it
holds of the catalog before, holds of every catalog made by definitions. -/
theorem ofDefinitions_induction {P : Catalog → Prop} (hempty : P empty)
    (hpush : ∀ c d right, P c → c.accept d = .ok right → P (c.push right))
    {ds : List Definition} {c : Catalog} (h : ofDefinitions ds = .ok c) : P c := by
  refine foldlM_induction (fun _ c => P c) hempty ?_ h
  intro _ start d next hstart hdefine
  obtain ⟨right, haccept, rfl⟩ := exists_of_map_eq_ok hdefine
  exact hpush start d right hstart haccept

/-- A catalog made by definitions has its slots in order. -/
theorem slotted_of_ofDefinitions {ds : List Definition} {c : Catalog}
    (h : ofDefinitions ds = .ok c) : c.Slotted := by
  refine ofDefinitions_induction slotted_empty ?_ h
  intro c d right hc haccept
  exact hc.push (slot_of_accept haccept)

/-- A right that is found and has a slot is in the catalog. -/
theorem mem_of_lookup {c : Catalog} {name : String} {right : Right} {slot : Nat}
    (h : c.lookup name = .ok right) (hslot : right.label.slot = some slot) :
    right ∈ c.rights := by
  rcases lookup_eq_ok h with hget | ⟨-, hspelled⟩
  · exact List.mem_of_find?_eq_some hget
  · obtain ⟨access, t, attr, rfl⟩ := Right.attrs_of_ofName hspelled
    cases hslot

/-- Two rights that are found and have the same slot are one right. -/
theorem Slotted.eq_of_slot {c : Catalog} (hc : c.Slotted) {name other : String} {r s : Right}
    {slot : Nat} (hr : c.lookup name = .ok r) (hs : c.lookup other = .ok s)
    (hrslot : r.label.slot = some slot) (hsslot : s.label.slot = some slot) : r = s :=
  hc.unique r (mem_of_lookup hr hrslot) s (mem_of_lookup hs hsslot) slot hrslot hsslot

end DirectoryRights.Catalog
