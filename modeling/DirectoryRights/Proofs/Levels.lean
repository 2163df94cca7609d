import Mathlib.Data.List.Forall2
import DirectoryRights.Inquiry
import DirectoryRights.Proofs.Reading

/-!
# The levels of a search

A search reads the grants of the target, then those of its groups together, then those of each entry
above the groups. Here these levels are laid out in one list, in the order of the search, and the
search is shown to go through this list from its beginning: a level that cannot be read ends it with
an error, a level with a grant whose grantee is the principal ends it with this grant, and any other
level is passed over.
-/

set_option autoImplicit false

namespace DirectoryRights

/-- Grants that are searched together. -/
structure Level where
  /-- Whether positive grants kept for the domains below count, and no other positive ones. -/
  below : Bool
  /-- The grants, in the order in which they are searched. -/
  grants : List Grant

/-- The level of an entry whose grants are asked for. -/
def Level.ofAnswer (below : Bool) (answer : GrantAnswer) : Except Error Level :=
  answer.map fun set => ⟨below, set.elim [] GrantSet.all⟩

namespace DomainBorder

/-- Whether the border of a domain is open to the admins of another; a failure to find out counts as
a refusal. -/
def isOpen (holder target : Entry) : Reading Bool := do
  match ← (check holder target false).run with
  | .ok decision => return decision = .allow
  | .error _ => return false

/-- A domain is open exactly if the check of its border ends with an allowance. -/
theorem isOpen_eval {source : Entry → GrantAnswer} {holder target : Entry} :
    (isOpen holder target).eval source = true ↔
      (check holder target false).eval source = .ok .allow := by
  unfold isOpen Reader.eval
  rw [Reading.eval_bind]
  cases Reading.eval source (check holder target false).run with
  | error e => simp
  | ok decision => simp

end DomainBorder

namespace Inquiry

variable (q : Inquiry)

/-- The search through a list of levels, some of which may not be readable. -/
def scan : List (Except Error Level) → Bool → Except Error Finding
  | [], seen => .ok (.none seen)
  | .error e :: _, _ => .error e
  | .ok level :: rest, seen =>
    match q.firstMatch (q.candidates level.below level.grants) with
    | .error e => .error e
    | .ok (some g) => .ok (.found g)
    | .ok none => scan rest (seen || !(q.candidates level.below level.grants).isEmpty)

/-- The level of the groups of a target. -/
def groupLevel (source : Entry → GrantAnswer) (holder home : Option Entry) : Except Error Level :=
  ((q.gather holder home (Ancestry.groups q.view q.target q.expandsGroups)).eval source).map
    fun pool => ⟨false, Grant.ranked pool⟩

/-- The levels of a search in their order, for a principal whose domain is `holder` and a target in
the domain `home`. -/
def levels (source : Entry → GrantAnswer) (holder home : Option Entry)
    (stops : List (Entry × Bool)) : List (Except Error Level) :=
  Level.ofAnswer false (source q.target) :: q.groupLevel source holder home
    :: stops.map fun (entry, below) => Level.ofAnswer below (source entry)

/-- What a check does, as far as it is settled before grants are read. -/
inductive Course where
  /-- Nobody who may use the right asks. -/
  | idle
  /-- The domain of an admin is not known. -/
  | failed (e : Error)
  /-- The border of the target is looked at from the domain of an admin. -/
  | border (domain : Entry)
  /-- The levels are searched. -/
  | search (holder : Option Entry)

/-- The course of a check. -/
def course : Course :=
  if q.isAdminRight then
    match q.principal.entry?.filter fun _ => q.principal.mayUseAdminRights with
    | none => .idle
    | some e =>
      match q.holderDomain e with
      | .error cause => .failed cause
      | .ok domain => if q.right.isCrossDomainAdmin then .border domain else .search (some domain)
  else .search none

/-- A check that follows a course. -/
def follow : Course → Reader (Decision × Option Grant)
  | .idle => return (.undecided, none)
  | .failed e => throw e
  | .border domain => return (← DomainBorder.check domain q.target q.delegate, none)
  | .search holder => do
    let finding ← q.search holder
    return (finding.decision, finding.grant?)

/-- What a domain says of its border, from its grants. -/
theorem check_eval (source : Entry → GrantAnswer) (holder target : Entry) (delegate : Bool) :
    (DomainBorder.check holder target delegate).eval source =
      if target.isDomain then
        (source target).map fun set =>
          DomainBorder.decide holder.id.text delegate (set.elim [] GrantSet.all)
      else .error (.crossDomainTarget target.targetType) := by
  unfold DomainBorder.check
  by_cases hdomain : target.isDomain = true
  · rw [if_pos hdomain, if_pos hdomain, Reader.eval_bind, Reader.eval_grantsOf]
    rcases source target with e | set | set <;> rfl
  · rw [if_neg hdomain, if_neg hdomain]
    rfl

/-- Where there are no grants there are no candidates. -/
@[simp]
theorem candidates_nil (below : Bool) : q.candidates below [] = [] := by
  simp [candidates]

/-- A level without grants changes nothing. -/
@[simp]
theorem scan_empty (below seen : Bool) (rest : List (Except Error Level)) :
    q.scan (.ok ⟨below, []⟩ :: rest) seen = q.scan rest seen := by
  simp [scan, firstMatch]

/-- A search that ends without an error could read its first level, and ended there or went on. -/
theorem scan_cons_eq_ok {read : Except Error Level} {rest : List (Except Error Level)}
    {seen : Bool} {finding : Finding} (h : q.scan (read :: rest) seen = .ok finding) :
    ∃ level, read = .ok level ∧
      ((∃ g, q.firstMatch (q.candidates level.below level.grants) = .ok (some g) ∧
          finding = .found g) ∨
        q.firstMatch (q.candidates level.below level.grants) = .ok none ∧
          q.scan rest (seen || !(q.candidates level.below level.grants).isEmpty) =
            .ok finding) := by
  cases read with
  | error e => cases h
  | ok level =>
    refine ⟨level, rfl, ?_⟩
    unfold scan at h
    rcases hmatch : q.firstMatch (q.candidates level.below level.grants) with e | g | g
    · rw [hmatch] at h
      cases h
    · rw [hmatch] at h
      exact .inr ⟨rfl, h⟩
    · rw [hmatch] at h
      cases h
      exact .inl ⟨g, rfl, rfl⟩

/-- What is read as two levels leads a search on in the same way, as far as `out` tells of what it
finds. -/
inductive SameSearch {γ : Type} (out : Finding → γ) :
    Except Error Level → Except Error Level → Prop where
  /-- Neither can be read. -/
  | error (e : Error) : SameSearch out (.error e) (.error e)
  /-- The same is told of the first matches, and either both levels have candidates or none has. -/
  | ok {level level' : Level}
    (hmatch : (q.firstMatch (q.candidates level.below level.grants)).map
        (Option.map fun g => out (.found g)) =
      (q.firstMatch (q.candidates level'.below level'.grants)).map
        (Option.map fun g => out (.found g)))
    (hempty : (q.candidates level.below level.grants).isEmpty =
      (q.candidates level'.below level'.grants).isEmpty) :
    SameSearch out (.ok level) (.ok level')

/-- What is read as a level leads a search on as it does itself. -/
theorem sameSearch_refl {γ : Type} (out : Finding → γ) (read : Except Error Level) :
    q.SameSearch out read read := by
  cases read with
  | error e => exact .error e
  | ok level => exact .ok rfl rfl

/-- Two searches of which the same is told fail, find nothing or find a grant together. -/
theorem same_end {γ : Type} {out : Grant → γ} {found found' : Except Error (Option Grant)}
    (h : found.map (Option.map out) = found'.map (Option.map out)) :
    (∃ e, found = .error e ∧ found' = .error e) ∨ (found = .ok none ∧ found' = .ok none) ∨
      ∃ g g', found = .ok (some g) ∧ found' = .ok (some g') ∧ out g = out g' := by
  rcases found with e | _ | g <;> rcases found' with e' | _ | g' <;>
    simp only [Except.map, Option.map, Except.error.injEq, Except.ok.injEq, Option.some.injEq,
      reduceCtorEq] at h
  · exact .inl ⟨e, rfl, by rw [h]⟩
  · exact .inr (.inl ⟨rfl, rfl⟩)
  · exact .inr (.inr ⟨g, g', rfl, rfl, h⟩)

/-- Of searches through levels that lead them on in the same way the same is told at the end. -/
theorem scan_of_sameSearch {γ : Type} {out : Finding → γ} {reads reads' : List (Except Error Level)}
    (h : List.Forall₂ (q.SameSearch out) reads reads') (seen : Bool) :
    (q.scan reads seen).map out = (q.scan reads' seen).map out := by
  induction h generalizing seen with
  | nil => rfl
  | cons hread _ ih =>
    cases hread with
    | error e => rfl
    | @ok level level' hmatch hempty =>
      unfold scan
      rw [hempty]
      rcases same_end hmatch with ⟨e, hfirst, hsecond⟩ | ⟨hfirst, hsecond⟩ |
        ⟨g, g', hfirst, hsecond, hout⟩
      · rw [hfirst, hsecond]
      · rw [hfirst, hsecond]
        exact ih _
      · rw [hfirst, hsecond]
        exact congrArg Except.ok hout

/-- The search of one level is the search through the levels from it on. -/
theorem level_eval (source : Entry → GrantAnswer) (below seen : Bool) (grants : List Grant)
    (next : Bool → Reader Finding) (rest : List (Except Error Level))
    (hnext : ∀ seen, (next seen).eval source = q.scan rest seen) :
    (q.level below grants seen next).eval source =
      q.scan (.ok ⟨below, grants⟩ :: rest) seen := by
  simp only [level, scan]
  cases q.firstMatch (q.candidates below grants) with
  | error e => rfl
  | ok found =>
    cases found with
    | none => simp [hnext]
    | some g => rfl

/-- Reading the grants of an entry and searching them is the search of its level. -/
theorem stop_eval (source : Entry → GrantAnswer) (below seen : Bool) (entry : Entry)
    (next : Bool → Reader Finding) (rest : List (Except Error Level))
    (hnext : ∀ seen, (next seen).eval source = q.scan rest seen) :
    ((do match ← Reader.grantsOf entry with
        | none => next seen
        | some set => q.level below set.all seen next) : Reader Finding).eval source =
      q.scan (Level.ofAnswer below (source entry) :: rest) seen := by
  rw [Reader.eval_bind, Reader.eval_grantsOf]
  cases source entry with
  | error e => rfl
  | ok set =>
    cases set with
    | none =>
      show (next seen).eval source = q.scan (.ok ⟨below, []⟩ :: rest) seen
      rw [hnext, scan_empty]
    | some set => exact q.level_eval source below seen set.all next rest hnext

/-- The search above the groups: the grants of the groups first, then one level for each stop. -/
theorem climb_eval (source : Entry → GrantAnswer) (stops : List (Entry × Bool))
    (pool : List Grant) (seen : Bool) (hpool : stops = [] → pool = []) :
    (q.climb pool seen (stops.map .ok)).eval source =
      q.scan (.ok ⟨false, pool⟩
        :: stops.map fun (entry, below) => Level.ofAnswer below (source entry)) seen := by
  induction stops generalizing pool seen with
  | nil =>
    rw [hpool rfl, scan_empty]
    rfl
  | cons stop rest ih =>
    obtain ⟨entry, below⟩ := stop
    refine q.level_eval source false seen pool _ _ fun seen => ?_
    refine q.stop_eval source below seen entry (fun seen => q.climb [] seen (rest.map .ok)) _
      fun seen => ?_
    rw [ih [] seen fun _ => rfl, scan_empty]

/-- A target above which there is nothing has no groups. -/
theorem groups_eq_nil_of_stops {stops : List (Entry × Bool)} (hstops : q.stops = stops.map .ok)
    (hnil : stops = []) : Ancestry.groups q.view q.target q.expandsGroups = [] := by
  rw [hnil, Inquiry.stops, List.map_nil, List.append_eq_nil_iff] at hstops
  by_cases hglobal : q.target.targetType = .global
  · rw [Ancestry.groups, hglobal]
    rfl
  · have hlast := hstops.2
    rw [Ancestry.last, if_neg hglobal] at hlast
    cases hlast

/-- A search goes through the levels in their order. -/
theorem search_eval (source : Entry → GrantAnswer) (holder home : Option Entry)
    (stops : List (Entry × Bool)) (hhome : q.targetHome = .ok home)
    (hstops : q.stops = stops.map .ok) :
    (q.search holder).eval source = q.scan (q.levels source holder home stops) false := by
  refine q.stop_eval source false false q.target (fun seen => do
    let targetHome ← ExceptT.mk (pure q.targetHome)
    let pool ← q.gather holder targetHome (Ancestry.groups q.view q.target q.expandsGroups)
    q.climb (Grant.ranked pool) seen q.stops) _ fun seen => ?_
  have hgroups := q.groups_eq_nil_of_stops hstops
  simp only [Reader.eval_bind, Reader.eval_mk_pure, hhome, hstops, groupLevel]
  show ((q.gather holder home _).eval source).bind _ = _
  cases hpool : (q.gather holder home
      (Ancestry.groups q.view q.target q.expandsGroups)).eval source with
  | error e => rfl
  | ok pool =>
    refine q.climb_eval source stops (Grant.ranked pool) seen fun hnil => ?_
    rw [hgroups hnil] at hpool
    cases hpool
    rfl

/-- The grants of the groups of a target, taken together. -/
theorem gather_cons (source : Entry → GrantAnswer) (holder home : Option Entry) (group : Entry)
    (direct : Bool) (rest : List (Entry × Bool)) :
    (q.gather holder home ((group, direct) :: rest)).eval source =
      (source group).bind fun set =>
        ((q.gather holder home rest).eval source).map fun pool =>
          inherited direct ((q.groupCounts holder home group).eval source)
            (set.elim [] GrantSet.all) ++ pool := by
  rw [gather, Reader.eval_bind, Reader.eval_grantsOf]
  cases source group with
  | error e => rfl
  | ok set =>
    cases set with
    | none =>
      show (q.gather holder home rest).eval source = Except.map _ _
      cases (q.gather holder home rest).eval source <;> simp [Except.map, inherited]
    | some set =>
      show Reader.eval source (_ >>= _) = Except.map _ _
      simp only [Reader.eval_bind, Reader.eval_liftM]
      show Except.bind ((q.gather holder home rest).eval source) _ = Except.map _ _
      cases (q.gather holder home rest).eval source <;> rfl

/-- The grants gathered from groups, if those of each group can be read. -/
theorem gather_cons_eq_ok {source : Entry → GrantAnswer} {holder home : Option Entry}
    {group : Entry} {direct : Bool} {rest : List (Entry × Bool)} {pool : List Grant}
    (h : (q.gather holder home ((group, direct) :: rest)).eval source = .ok pool) :
    ∃ set gathered, source group = .ok set ∧
      (q.gather holder home rest).eval source = .ok gathered ∧
      pool = inherited direct ((q.groupCounts holder home group).eval source)
        (set.elim [] GrantSet.all) ++ gathered := by
  rw [gather_cons] at h
  cases hset : source group with
  | error e =>
    rw [hset] at h
    cases h
  | ok set =>
    rw [hset] at h
    cases hrest : (q.gather holder home rest).eval source with
    | error e =>
      rw [hrest] at h
      cases h
    | ok gathered =>
      rw [hrest] at h
      cases h
      exact ⟨set, gathered, rfl, rfl, rfl⟩

/-- The level of the groups can be read if their grants can be gathered, and it has these in the
order of the search. -/
theorem groupLevel_eq_ok {source : Entry → GrantAnswer} {holder home : Option Entry}
    {level : Level} (h : q.groupLevel source holder home = .ok level) :
    ∃ pool, (q.gather holder home
        (Ancestry.groups q.view q.target q.expandsGroups)).eval source = .ok pool ∧
      level = ⟨false, Grant.ranked pool⟩ := by
  obtain ⟨pool, hpool, rfl⟩ := exists_of_map_eq_ok h
  exact ⟨pool, hpool, rfl⟩

/-- The grants of a group reach the admins of one domain over the border of another: neither the
admins nor the group belong to the domain of the target. -/
structure CrossesBorder (holder target group : Entry) : Prop where
  /-- The admins are those of another domain. -/
  holder : holder.id ≠ target.id
  /-- The group is known to live in another domain. -/
  group : ∃ domain, q.view.homeDomain group = .ok (some domain) ∧ domain.id ≠ target.id

/-- Whether a group counts is known at once, or its grants cross the border of the domain of the
target and it is asked of this domain. -/
theorem groupCounts_cases (holder home : Option Entry) (group : Entry) :
    (∃ counts, q.groupCounts holder home group = pure counts) ∨
      ∃ domain target, holder = some domain ∧ home = some target ∧
        q.CrossesBorder domain target group ∧
        q.groupCounts holder home group = DomainBorder.isOpen domain target := by
  unfold groupCounts DomainBorder.groupCounts
  cases holder with
  | none => exact .inl ⟨true, rfl⟩
  | some domain =>
    cases home with
    | none => exact .inl ⟨true, rfl⟩
    | some target =>
      by_cases hsame : domain.id = target.id
      · exact .inl ⟨true, if_pos hsame⟩
      · simp only [if_neg hsame]
        rcases hdomain : q.view.homeDomain group with e | groupDomain | groupDomain
        · exact .inl ⟨false, rfl⟩
        · exact .inl ⟨false, rfl⟩
        · by_cases hgroup : groupDomain.id = target.id
          · exact .inl ⟨true, if_pos hgroup⟩
          · exact .inr ⟨domain, target, rfl, rfl, ⟨hsame, groupDomain, hdomain, hgroup⟩,
              if_neg hgroup⟩

/-- A group that counts still counts if no border is closed. -/
theorem groupCounts_mono {source other : Entry → GrantAnswer} {holder home : Option Entry}
    {group : Entry} (hcheck : ∀ domain target, holder = some domain → home = some target →
      q.CrossesBorder domain target group →
      (DomainBorder.check domain target false).eval source = .ok .allow →
      (DomainBorder.check domain target false).eval other = .ok .allow)
    (h : (q.groupCounts holder home group).eval source = true) :
    (q.groupCounts holder home group).eval other = true := by
  rcases q.groupCounts_cases holder home group with ⟨counts, hcounts⟩ |
    ⟨domain, target, hholder, hhome, hcrosses, hopen⟩
  · rw [hcounts] at h ⊢
    exact h
  · rw [hopen, DomainBorder.isOpen_eval] at h ⊢
    exact hcheck domain target hholder hhome hcrosses h

/-- Where the same borders are open, the same groups count. -/
theorem groupCounts_of_borders {source other : Entry → GrantAnswer} {holder home : Option Entry}
    {group : Entry} (hcheck : ∀ domain target, holder = some domain → home = some target →
      q.CrossesBorder domain target group →
      ((DomainBorder.check domain target false).eval other = .ok .allow ↔
        (DomainBorder.check domain target false).eval source = .ok .allow)) :
    (q.groupCounts holder home group).eval other =
      (q.groupCounts holder home group).eval source := by
  rw [Bool.eq_iff_iff]
  constructor
  · exact q.groupCounts_mono fun domain target hholder hhome hcrosses =>
      (hcheck domain target hholder hhome hcrosses).mp
  · exact q.groupCounts_mono fun domain target hholder hhome hcrosses =>
      (hcheck domain target hholder hhome hcrosses).mpr

/-- A check follows its course. -/
theorem answer_eq_follow : q.answer = q.follow q.course := by
  unfold answer course
  by_cases hadmin : q.isAdminRight = true
  · rw [if_pos hadmin, if_pos hadmin]
    cases q.principal.entry?.filter fun _ => q.principal.mayUseAdminRights with
    | none => rfl
    | some e =>
      simp only
      cases q.holderDomain e with
      | error cause => rfl
      | ok domain =>
        show (if q.right.isCrossDomainAdmin then _ else _ : Reader (Decision × Option Grant)) = _
        by_cases hcross : q.right.isCrossDomainAdmin = true
        · simp only [if_pos hcross]
          rfl
        · simp only [if_neg hcross]
          rfl
  · rw [if_neg hadmin, if_neg hadmin]
    rfl

/-- A check at a border ends with what the border says, and no grant is reported. -/
theorem eval_follow_border (source : Entry → GrantAnswer) (domain : Entry) :
    (q.follow (.border domain)).eval source =
      ((DomainBorder.check domain q.target q.delegate).eval source).map (·, none) := by
  unfold follow
  rw [Reader.eval_bind]
  cases (DomainBorder.check domain q.target q.delegate).eval source <;> rfl

/-- A check that searches ends with the decision of what it finds, and the grant that was found. -/
theorem eval_follow_search (source : Entry → GrantAnswer) (holder : Option Entry) :
    (q.follow (.search holder)).eval source =
      ((q.search holder).eval source).map fun finding => (finding.decision, finding.grant?) := by
  unfold follow
  rw [Reader.eval_bind]
  cases (q.search holder).eval source <;> rfl

/-- A check of a user right searches, whoever asks and from wherever. -/
theorem course_of_user (huser : q.right.isUserRight = true) : q.course = .search none := by
  unfold course isAdminRight
  rw [huser]
  rfl

/-- For admin rights the groups of the target are always read. -/
theorem expandsGroups_of_admin (hadmin : q.isAdminRight = true) : q.expandsGroups = true := by
  simp [expandsGroups, hadmin]

/-- In a directory at hand the domain of a target can always be asked for. -/
theorem targetHome_ofDirectory {d : Directory} (hview : q.view = d.view) :
    ∃ home, q.targetHome = .ok home := by
  unfold targetHome
  rw [hview]
  by_cases hlives : (!q.target.targetType.livesInDomain) = true
  · exact ⟨none, if_pos hlives⟩
  · rw [if_neg hlives]
    cases q.target.syntheticDomain? with
    | none => exact ⟨_, rfl⟩
    | some domain => exact ⟨_, rfl⟩

/-- For a kind that lives in a domain this is the domain that owns the target. -/
theorem targetHome_of_lives {d : Directory} (hview : q.view = d.view)
    (hlives : q.target.targetType.livesInDomain = true) :
    q.targetHome = .ok (d.homeDomain? q.target) := by
  unfold targetHome Directory.homeDomain?
  rw [hview, hlives]
  cases hmade : q.target.syntheticDomain? with
  | some domain => rfl
  | none =>
    have hasked : d.view.homeDomain q.target = .ok (d.homeDomain? q.target) := rfl
    simp [hasked, Directory.homeDomain?, hmade]

/-- The domains whose grants an entry inherits that lives in a domain are its own one, unless this
is made up or unknown. -/
theorem domains_of_lives {d : Directory} {target : Entry}
    (hlives : target.targetType.livesInDomain = true) :
    Ancestry.domains d.view target =
      if target.syntheticDomain?.isSome then [] else (d.homeDomain? target).toList := by
  have hasked : d.view.homeDomain target = .ok (d.homeDomain? target) := rfl
  unfold Ancestry.domains Ancestry.home
  rw [if_pos hlives, hasked]
  cases d.homeDomain? target <;> rfl

/-- The entries above the groups of a target in a directory at hand. -/
def knownStops (d : Directory) : List (Entry × Bool) :=
  (Ancestry.domains d.view q.target).map (·, q.target.isDomain)
    ++ if q.target.targetType = .global then [] else [(Directory.globalGrant, false)]

/-- In a directory at hand no step of the search fails to find its entry. -/
theorem stops_ofDirectory {d : Directory} (hview : q.view = d.view) :
    q.stops = (q.knownStops d).map .ok := by
  unfold stops knownStops
  rw [hview, List.map_append, List.map_map, Ancestry.last]
  by_cases hglobal : q.target.targetType = .global
  · rw [if_pos hglobal, if_pos hglobal]
    rfl
  · rw [if_neg hglobal, if_neg hglobal]
    rfl

end Inquiry

end DirectoryRights
