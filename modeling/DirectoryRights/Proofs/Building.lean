import Mathlib.Data.List.Induction
import DirectoryRights.Proofs.WellFormed

/-!
# Building a catalog step by step

A catalog is built by a builder, which keeps the rights by name and the slot that comes next. A
definition is tried on it step by step: the objections are raised, the right is made, a slot is
taken, the right gets its texts and its slot, and goes to the others under its name. Each of the
first two steps may end the attempt, and none of them changes the builder; the others cannot fail.
So an attempt that fails leaves the builder as it was, and one that succeeds adds one right at the
end. The builder after any attempts holds the catalog of those definitions that were accepted.
-/

set_option autoImplicit false

namespace DirectoryRights

/-- The label of a right of which only the name is known. -/
def Label.plain (name : String) : Label :=
  { name, description := none, default := none, slot := none }

/-- The right with another label. -/
def SingleRight.relabel (label : Label) : SingleRight → SingleRight
  | preset _ target audience => preset label target audience
  | attrs _ access targets governed => attrs label access targets governed

/-- The right with another label. -/
def Right.relabel (label : Label) : Right → Right
  | ⟨.single s, _, _⟩ => .ofSingle (s.relabel label)
  | ⟨.combo _ members, leaves, mem_leaves⟩ => ⟨.combo label members, leaves, mem_leaves⟩

/-- The right has the label that it was given. -/
theorem Right.label_relabel (label : Label) (r : Right) : (r.relabel label).label = label := by
  obtain ⟨form, leaves, mem_leaves⟩ := r
  cases form with
  | single s => cases s <;> rfl
  | combo old members => rfl

/-- The rights that were defined, by name, and the slot that comes next. -/
structure Builder where
  /-- The rights by name, in the order of their definition. -/
  rights : Table String Right
  /-- The slot that the next right with a slot gets. -/
  nextSlot : Nat

/-- An attempt to change a builder, which may fail. -/
abbrev Build : Type → Type :=
  ExceptT Error (StateM Builder)

namespace Build

variable {α β : Type}

/-- The outcome of an attempt, and the builder after it. -/
def result (m : Build α) (b : Builder) : Except Error α × Builder :=
  m.run b

/-- Asks something of the builder, which may fail. -/
def ask (f : Builder → Except Error α) : Build α := do
  match f (← get) with
  | .ok a => return a
  | .error e => throw e

/-- Ends an attempt for a reason, if there is one. -/
def failIf (p : Bool) (e : Error) : Build Unit :=
  if p then throw e else pure ()

/-- The outcome of two attempts, one after the other: the second starts from the builder that the
first leaves, unless the first fails. -/
theorem result_bind (m : Build α) (f : α → Build β) (b : Builder) :
    (m >>= f).result b = match m.result b with
      | (.ok a, b') => (f a).result b'
      | (.error e, b') => (.error e, b') := by
  unfold result ExceptT.run
  simp only [bind, ExceptT.bind, ExceptT.mk, StateT.bind, ExceptT.bindCont]
  cases m b with
  | mk outcome b' => cases outcome <;> rfl

/-- After an attempt that goes well the next one starts from its builder. -/
theorem result_bind_of_ok {m : Build α} {b b' : Builder} {a : α} (h : m.result b = (.ok a, b'))
    (f : α → Build β) : (m >>= f).result b = (f a).result b' := by
  rw [result_bind, h]

/-- An attempt that fails ends what would come after it. -/
theorem result_bind_of_error {m : Build α} {b b' : Builder} {e : Error}
    (h : m.result b = (.error e, b')) (f : α → Build β) :
    (m >>= f).result b = (.error e, b') := by
  rw [result_bind, h]

/-- To look at the builder changes nothing. -/
theorem result_get_bind (f : Builder → Build β) (b : Builder) :
    (get >>= f).result b = (f b).result b := rfl

/-- To ask something of the builder leaves it as it is. -/
theorem result_ask (f : Builder → Except Error α) (b : Builder) :
    (ask f).result b = (f b, b) := by
  unfold ask
  rw [result_get_bind]
  cases f b <;> rfl

/-- The attempt ends exactly if the reason holds, and the builder stays as it is. -/
theorem result_failIf (p : Bool) (e : Error) (b : Builder) :
    (failIf p e).result b = if p then (.error e, b) else (.ok (), b) := by
  cases p <;> rfl

/-- What comes after a possible reason to end starts from the same builder. -/
theorem result_failIf_bind (p : Bool) (e : Error) (f : Unit → Build β) (b : Builder) :
    (failIf p e >>= f).result b = if p then (.error e, b) else (f ()).result b := by
  cases p <;> rfl

end Build

namespace Builder

/-- The builder without rights. -/
def empty : Builder := ⟨.empty, 0⟩

/-- The catalog of the rights that were defined. -/
def catalog (b : Builder) : Catalog :=
  ⟨b.rights.rows.map Prod.snd⟩

/-- Raises the objections against a definition. -/
def refuse (name : String) (d : Definition) : Build Unit := do
  Build.failIf (name = "") .emptyRightName
  Build.failIf ((← get).rights.contains name) (.duplicateRight name)
  Build.failIf (d.user && d.kind ≠ .preset) (.userRightNotPreset name)
  Build.failIf (d.user && Text.mentions '.' name) (.userRightDotted name)
  Build.failIf (d.grantTarget.isSome && !d.user) (.grantTargetOnAdminRight name)

/-- The right of a definition under a label. -/
def make (c : Catalog) (label : Label) (d : Definition) : Except Error Right :=
  match d.kind with
  | .preset => Catalog.buildPreset label d
  | .getAttrs => Catalog.buildAttrs label .read d
  | .setAttrs => Catalog.buildAttrs label .write d
  | .combo => c.buildCombo label d

/-- Hands out the slot that comes next, if a right is to have one. -/
def takeSlot (wanted : Bool) : Build (Option Nat) :=
  if wanted then
    modifyGet fun b => (some b.nextSlot, { b with nextSlot := b.nextSlot + 1 })
  else
    return none

/-- Puts a right to the others under a name. -/
def keep (name : String) (right : Right) : Build Right := do
  modify fun b => { b with rights := b.rights.insert name right }
  return right

/-- Tries a definition. -/
def define (d : Definition) : Build Right := do
  let name := Text.trim d.name
  refuse name d
  let right ← Build.ask fun b => make b.catalog (.plain name) d
  let slot ← takeSlot d.cache
  keep name (right.relabel { name, description := d.description, default := d.default, slot })

/-- The builder holds the rights of a catalog, and its next slot is the number of slots in use. -/
structure Represents (b : Builder) (c : Catalog) : Prop where
  /-- The rights stand under their names. -/
  rows : b.rights.rows = c.rights.map fun r => (r.name, r)
  /-- The slots in use are counted. -/
  counted : b.nextSlot = c.slotsUsed

variable {b : Builder} {c : Catalog} {d : Definition}

/-- The builder without rights holds the empty catalog. -/
theorem represents_empty : empty.Represents .empty := ⟨rfl, rfl⟩

/-- The rights of the builder make up the catalog that it holds. -/
theorem Represents.catalog_eq (h : b.Represents c) : b.catalog = c := by
  unfold catalog
  rw [h.rows, List.map_map]
  exact congrArg Catalog.mk (List.map_id _)

/-- The builder knows a name exactly if the catalog has a right of this name. -/
theorem Represents.contains (h : b.Represents c) (name : String) :
    b.rights.contains name = (c.get? name).isSome := by
  unfold Table.contains Table.get? Catalog.get?
  rw [h.rows, List.find?_map, Option.isSome_map, Option.isSome_map]
  rfl

/-- The objections of the builder are those of the catalog, in the same order. -/
theorem Represents.result_refuse (h : b.Represents c) (name : String) (d : Definition) :
    (refuse name d).result b =
      (match c.objection? d name with
        | some objection => .error objection
        | none => .ok (), b) := by
  unfold refuse Catalog.objection?
  simp only [Build.result_failIf_bind, Build.result_get_bind, Build.result_failIf, h.contains,
    decide_eq_true_eq, Bool.and_eq_true, ne_eq, Bool.not_eq_true', Bool.not_eq_true]
  -- Both raise the first of the same objections.
  split
  · rfl
  · split
    · rfl
    · split
      · rfl
      · split
        · rfl
        · split <;> rfl

/-- A right for attributes that is made under its name alone and labelled later is the right that is
made with the label. -/
theorem buildAttrs_relabel (access : AttrAccess) (plain label : Label)
    (h : plain.name = label.name) (d : Definition) :
    (Catalog.buildAttrs plain access d).map (Right.relabel label) =
      Catalog.buildAttrs label access d := by
  simp only [Catalog.buildAttrs]
  repeat' split
  all_goals first | rfl | (simp only [Except.map, h])

/-- Under which label a right is made matters only for the label, as long as the name is the
same. -/
theorem make_relabel (c : Catalog) (plain label : Label) (h : plain.name = label.name)
    (d : Definition) : (make c plain d).map (Right.relabel label) = make c label d := by
  unfold make
  cases d.kind with
  | preset =>
    simp only [Catalog.buildPreset]
    repeat' split
    all_goals first | rfl | (simp only [Except.map, h])
  | getAttrs => exact buildAttrs_relabel .read plain label h d
  | setAttrs => exact buildAttrs_relabel .write plain label h d
  | combo =>
    simp only [Catalog.buildCombo, h]
    repeat' split
    · rfl
    · rfl
    · cases d.rights.mapM (c.member label.name) <;> rfl

/-- A definition is accepted in two steps: the objections come first, then the right is made. -/
theorem accept_eq (c : Catalog) (d : Definition) :
    c.accept d = match c.objection? d (Text.trim d.name) with
      | some objection => .error objection
      | none => make c { name := Text.trim d.name, description := d.description,
                         default := d.default,
                         slot := if d.cache then some c.slotsUsed else none } d := by
  unfold Catalog.accept make
  rfl

/-- A right under a new name goes to the end of the table. -/
theorem insert_of_new {t : Table String Right} {name : String} (h : t.contains name = false)
    (right : Right) : t.insert name right = ⟨t.rows ++ [(name, right)]⟩ := by
  obtain ⟨rows⟩ := t
  have hnone : ∀ row ∈ rows, row.1 ≠ name := by
    simpa [Table.contains, Table.get?] using h
  clear h
  unfold Table.insert
  congr 1
  simp only
  induction rows with
  | nil => rfl
  | cons row rest ih =>
    rw [Table.put, if_neg (hnone row List.mem_cons_self),
      ih fun other hother => hnone other (List.mem_cons_of_mem _ hother)]
    rfl

/-- A slot that is wanted is the next one, and it is counted. -/
theorem result_takeSlot (wanted : Bool) (b : Builder) :
    (takeSlot wanted).result b = (.ok (if wanted then some b.nextSlot else none),
      { b with nextSlot := b.nextSlot + if wanted then 1 else 0 }) := by
  cases wanted <;> rfl

/-- A right that is kept stands under its name, and the slots stay as they are. -/
theorem result_keep (name : String) (right : Right) (b : Builder) :
    (keep name right).result b =
      (.ok right, { b with rights := b.rights.insert name right }) := rfl

/-- A definition that is tried is accepted or refused as by the catalog. If it is refused, the
builder stays as it is, and if it is accepted, the right goes to the end. -/
theorem Represents.result_define (h : b.Represents c) (d : Definition) :
    (define d).result b = match c.accept d with
      | .error e => (.error e, b)
      | .ok right => (.ok right,
          { rights := ⟨b.rights.rows ++ [(right.name, right)]⟩
            nextSlot := b.nextSlot + if d.cache then 1 else 0 }) := by
  have hrefuse := h.result_refuse (Text.trim d.name) d
  unfold define
  rw [accept_eq]
  cases hobjection : c.objection? d (Text.trim d.name) with
  | some objection =>
    rw [hobjection] at hrefuse
    exact Build.result_bind_of_error hrefuse _
  | none =>
    rw [hobjection] at hrefuse
    have hnew : b.rights.contains (Text.trim d.name) = false := by
      rw [h.contains, (Catalog.objection?_eq_none hobjection).2.1]
      rfl
    -- The right of the catalog is the one that is made here, under its final label.
    have hmade := make_relabel c (.plain (Text.trim d.name))
      { name := Text.trim d.name, description := d.description, default := d.default,
        slot := if d.cache then some c.slotsUsed else none } rfl d
    have hask := Build.result_ask (fun b => make b.catalog (.plain (Text.trim d.name)) d) b
    rw [h.catalog_eq] at hask
    rw [Build.result_bind_of_ok hrefuse, ← hmade]
    cases hplain : make c (.plain (Text.trim d.name)) d with
    | error e =>
      rw [hplain] at hask
      exact Build.result_bind_of_error hask _
    | ok right =>
      rw [hplain] at hask
      rw [Build.result_bind_of_ok hask, Build.result_bind_of_ok (result_takeSlot _ _), result_keep,
        h.counted]
      simp only [Except.map, insert_of_new hnew]
      unfold Right.name
      rw [Right.label_relabel]

/-- The builder with one more right holds the catalog with one more right. -/
theorem Represents.push (h : b.Represents c) {right : Right} (haccept : c.accept d = .ok right) :
    Represents
      { rights := ⟨b.rights.rows ++ [(right.name, right)]⟩
        nextSlot := b.nextSlot + if d.cache then 1 else 0 } (c.push right) where
  rows := by
    unfold Catalog.push
    rw [h.rows, List.map_append]
    rfl
  counted := by
    rw [Catalog.slotsUsed_push, h.counted, (Catalog.accept_eq_ok haccept).2.1.label]
    cases d.cache <;> rfl

/-- The builder after some definitions were tried, whatever came of them. -/
def tried (ds : List Definition) : Builder :=
  ds.foldl (fun b d => ((define d).result b).2) empty

/-- The definition that is tried last meets the builder that all before have left. -/
theorem tried_concat (ds : List Definition) (d : Definition) :
    tried (ds ++ [d]) = ((define d).result (tried ds)).2 := by
  unfold tried
  rw [List.foldl_append]
  rfl

/-- The last of several definitions is added to the catalog of all before. -/
theorem ofDefinitions_concat (ds : List Definition) (d : Definition) :
    Catalog.ofDefinitions (ds ++ [d]) = (Catalog.ofDefinitions ds).bind (·.define d) := by
  unfold Catalog.ofDefinitions
  rw [List.foldlM_append]
  congr 1
  funext c
  cases hdefine : c.define d <;> simp [hdefine, bind, Except.bind, pure, Except.pure]

/-- After any attempts the builder holds the catalog of some of the definitions, those that were
accepted. -/
theorem exists_represents_tried (ds : List Definition) :
    ∃ accepted c, accepted.Sublist ds ∧ Catalog.ofDefinitions accepted = .ok c ∧
      (tried ds).Represents c := by
  -- The last attempt finds a builder that holds a catalog, which it leaves or adds one right to.
  induction ds using List.reverseRecOn with
  | nil => exact ⟨[], .empty, List.Sublist.refl _, rfl, represents_empty⟩
  | append_singleton ds d ih =>
    obtain ⟨accepted, c, hsub, hbuilt, hrep⟩ := ih
    rw [tried_concat, hrep.result_define]
    cases haccept : c.accept d with
    | error e =>
      exact ⟨accepted, c, hsub.trans (List.sublist_append_left _ _), hbuilt, hrep⟩
    | ok right =>
      refine ⟨accepted ++ [d], c.push right, hsub.append (List.Sublist.refl _), ?_,
        hrep.push haccept⟩
      rw [ofDefinitions_concat, hbuilt]
      show (c.accept d).map c.push = _
      rw [haccept]
      rfl

/-- Where no definition of a list is refused, the builder holds their catalog. -/
theorem represents_tried {ds : List Definition} (h : Catalog.ofDefinitions ds = .ok c) :
    (tried ds).Represents c := by
  induction ds using List.reverseRecOn generalizing c with
  | nil =>
    cases h
    exact represents_empty
  | append_singleton ds d ih =>
    rw [ofDefinitions_concat] at h
    cases hbefore : Catalog.ofDefinitions ds with
    | error e =>
      rw [hbefore] at h
      cases h
    | ok before =>
      rw [hbefore] at h
      obtain ⟨right, haccept, rfl⟩ := exists_of_map_eq_ok h
      rw [tried_concat, (ih hbefore).result_define, haccept]
      exact (ih hbefore).push haccept

/-- What trying one more definition does to a builder that some definitions were tried on: either it
is refused and the builder stays as it is, or the right that it asks for goes to the end. -/
inductive Outcome (b : Builder) (d : Definition) : Except Error Right × Builder → Prop where
  /-- The definition is refused. -/
  | refused {e : Error} (h : b.catalog.define d = .error e) : Outcome b d (.error e, b)
  /-- The definition is accepted. -/
  | accepted {right : Right} {after : Builder}
    (hright : Catalog.Realizes d (if d.cache then some b.nextSlot else none) right)
    (hrows : after.rights.rows = b.rights.rows ++ [(right.name, right)])
    (hslot : after.nextSlot = b.nextSlot + if d.cache then 1 else 0)
    (h : b.catalog.define d = .ok after.catalog) : Outcome b d (.ok right, after)

/-- An attempt has one of the two outcomes, for every builder that holds a catalog. -/
theorem Represents.outcome (h : b.Represents c) (d : Definition) :
    Outcome b d ((define d).result b) := by
  have hdefine : b.catalog.define d = (c.accept d).map c.push := by
    rw [h.catalog_eq]
    rfl
  rw [h.result_define]
  cases haccept : c.accept d with
  | error e =>
    rw [haccept] at hdefine
    exact .refused hdefine
  | ok right =>
    rw [haccept] at hdefine
    have hright := (Catalog.accept_eq_ok haccept).2.1
    rw [← h.counted] at hright
    refine .accepted hright rfl rfl ?_
    rw [(h.push haccept).catalog_eq]
    exact hdefine

/-- Whatever definitions were tried, one more that is refused leaves the builder as it is, and one
that is accepted adds the right that it asks for at the end, in agreement with the catalog. The
builder holds the catalog of those that were accepted, of all of them if none was refused, and this
catalog is well-formed, with as many slots in use as the builder has handed out. -/
theorem tried_wellFormed (ds : List Definition) :
    (∀ d, Outcome (tried ds) d ((define d).result (tried ds))) ∧
      (tried ds).catalog.WellFormed ∧
      (tried ds).catalog.rights.filterMap (·.label.slot) = List.range (tried ds).nextSlot ∧
      (∃ accepted, accepted.Sublist ds ∧
        Catalog.ofDefinitions accepted = .ok (tried ds).catalog) ∧
      ∀ c, Catalog.ofDefinitions ds = .ok c → c = (tried ds).catalog := by
  obtain ⟨accepted, c, hsub, hbuilt, hrep⟩ := exists_represents_tried ds
  have hformed := Catalog.wellFormed_of_ofDefinitions hbuilt
  have hcatalog := hrep.catalog_eq
  refine ⟨hrep.outcome, ?_, ?_, ⟨accepted, hsub, ?_⟩, fun c' hc' => ?_⟩
  · rw [hcatalog]
    exact hformed
  · rw [hcatalog, hrep.counted]
    exact hformed.slots
  · rw [hcatalog]
    exact hbuilt
  · exact (represents_tried hc').catalog_eq.symm

end Builder

end DirectoryRights
