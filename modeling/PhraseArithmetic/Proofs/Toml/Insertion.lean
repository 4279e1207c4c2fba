import Mathlib.Data.Option.Basic
import PhraseArithmetic.Toml.Document

/-!
# One more assignment

An assignment sets one key of one table, and every header fills or extends one table. So an
assignment to a key that nothing else sets can be put into a document: the tables are made as
before, and only that key is added.
-/
namespace PhraseArithmetic.Toml
namespace Entries

/-- Gives a key a value, in its place or at the end. -/
def put (key : String) (v : Value) (es : Entries) : Entries :=
  if (es.lookup key).isSome then replace key v es else es ++ [(key, v)]

section
variable {key x k : String} {v : Value} {es es' es₂ : Entries} {change : Entries → Option Entries}

theorem lookup_cons_eq (e : String × Value) (es : Entries) (x : String) :
    (e :: es).lookup x = if x = e.1 then some e.2 else es.lookup x := by
  obtain ⟨key, v⟩ := e
  by_cases h : x = key
  · simp [h]
  · have hne : (x == key) = false := beq_false_of_ne h
    simp [List.lookup_cons, hne, h]

theorem lookup_replace (key : String) (v : Value) (es : Entries) (x : String) :
    (replace key v es).lookup x =
      if x = key then (es.lookup key).map fun _ => v else es.lookup x := by
  induction es with
  | nil => simp [replace]
  | cons e es ih =>
    have hcons : replace key v (e :: es) =
        (if e.1 = key then (key, v) else e) :: replace key v es := rfl
    rw [hcons, lookup_cons_eq, lookup_cons_eq, lookup_cons_eq, ih]
    by_cases he : e.1 = key
    · by_cases hx : x = key <;> simp [he, hx]
    · by_cases hx : x = key
      · subst hx
        simp [he, Ne.symm he]
      · simp [he, hx]

theorem lookup_append_singleton (h : es.lookup key = none) (v : Value) (x : String) :
    (es ++ [(key, v)]).lookup x = if x = key then some v else es.lookup x := by
  rw [List.lookup_append, lookup_cons_eq, List.lookup_nil]
  by_cases hx : x = key
  · simp [hx, h]
  · simp [hx]

theorem lookup_put (key : String) (v : Value) (es : Entries) (x : String) :
    (put key v es).lookup x = if x = key then some v else es.lookup x := by
  unfold put
  split
  · next h =>
    rw [lookup_replace]
    obtain ⟨w, hw⟩ := Option.isSome_iff_exists.1 h
    rw [hw]
    rfl
  · next h => exact lookup_append_singleton (Option.not_isSome_iff_eq_none.1 h) v x

/-- The change sets one key, and to what is decided by the value that the key had. -/
def SetsOnly (key : String) (change : Entries → Option Entries) : Prop :=
  ∃ set : Option Value → Option Value, ∀ es, change es = (set (es.lookup key)).map (put key · es)

theorem SetsOnly.exists_put (h : SetsOnly key change) (hchange : change es = some es₂) :
    ∃ v, es₂ = put key v es ∧
      ∀ es', es'.lookup key = es.lookup key → change es' = some (put key v es') := by
  obtain ⟨set, hset⟩ := h
  rw [hset] at hchange
  obtain ⟨v, hv, rfl⟩ := Option.map_eq_some_iff.1 hchange
  exact ⟨v, rfl, fun es' hes' => by rw [hset, hes', hv]; rfl⟩

theorem SetsOnly.absent (h : SetsOnly key change) (hchange : change es = some es₂)
    (hx : es₂.lookup x = none) : es.lookup x = none := by
  obtain ⟨v, rfl, -⟩ := h.exists_put hchange
  rw [lookup_put] at hx
  split at hx
  · simp at hx
  · exact hx

/-- The second table has one key more. -/
structure Extends (k : String) (v : Value) (es es' : Entries) : Prop where
  absent : es.lookup k = none
  lookup_eq : ∀ x, es'.lookup x = if x = k then some v else es.lookup x

theorem extends_append_singleton (h : es.lookup k = none) (v : Value) :
    Extends k v es (es ++ [(k, v)]) := ⟨h, lookup_append_singleton h v⟩

theorem Extends.of_setsOnly (h : Extends k v es es') (hset : SetsOnly key change)
    (hchange : change es = some es₂) (habsent : es₂.lookup k = none) :
    ∃ es₂', change es' = some es₂' ∧ Extends k v es₂ es₂' := by
  obtain ⟨w, rfl, hput⟩ := hset.exists_put hchange
  have hkey : k ≠ key := by
    rintro rfl
    simp [lookup_put] at habsent
  have hsame : es'.lookup key = es.lookup key := by rw [h.lookup_eq, if_neg hkey.symm]
  refine ⟨_, hput es' hsame, habsent, fun x => ?_⟩
  rw [lookup_put, lookup_put, h.lookup_eq]
  by_cases hx : x = key
  · subst hx
    simp [hkey.symm]
  · simp [hx]

/-! ### What headers and assignments set -/

theorem setsOnly_none (key : String) : SetsOnly key fun _ => none := ⟨fun _ => none, fun _ => rfl⟩

theorem setsOnly_updateAt_cons (made origin : Origin)
    (change : Origin → Entries → Option Entries) (key : String) (path : List String) :
    SetsOnly key (updateAt made change origin (key :: path)) := by
  -- the value set is the one that a table with no other key would get
  refine ⟨fun old => (updateAt made change origin (key :: path)
    (old.elim [] fun v => [(key, v)])).bind (·.lookup key), fun es => ?_⟩
  simp only [updateAt]
  cases hkey : es.lookup key with
  | none => simp [put, hkey, Option.map_eq_bind, Option.bind_assoc]
  | some old =>
    cases old with
    | table o inner =>
      by_cases ho : o = .inline ∨ (made = .dotted ∧ o = .header)
      · simp [ho]
      · simp [ho, put, hkey, replace, Option.map_eq_bind, Option.bind_assoc]
    | tables elements =>
      simp [put, hkey, replace, Option.map_eq_bind, Option.bind_assoc]
    | text => simp
    | integer => simp
    | float => simp
    | boolean => simp
    | moment => simp
    | array => simp

/-- A change at the end of a path sets the first key of the path, or its own key. -/
theorem exists_setsOnly_updateAt {change : Origin → Entries → Option Entries}
    (h : ∀ o, SetsOnly key (change o)) (made origin : Origin) (path : List String) :
    ∃ key, SetsOnly key (updateAt made change origin path) := by
  cases path with
  | nil => exact ⟨key, h origin⟩
  | cons first path => exact ⟨first, setsOnly_updateAt_cons made origin change first path⟩

/-- One more key of a table, which dotted keys are the way to exactly if they made it. -/
def addNew (parents : List String) (v : Value) (key : String) (origin : Origin) (es : Entries) :
    Option Entries :=
  if (origin = .dotted ↔ parents ≠ []) ∧ (es.lookup key).isNone then some (put key v es) else none

theorem assign_eq {path : List String} (hlast : path.getLast? = some key) (v : Value)
    (es : Entries) : es.assign path v =
      updateAt .dotted (addNew path.dropLast v key) .header path.dropLast es := by
  simp only [assign, hlast, Option.bind_eq_bind, Option.bind_some]
  congr 1
  funext origin es
  unfold addNew
  split
  · next h => simp [put, Option.isNone_iff_eq_none.1 h.2]
  · rfl

theorem setsOnly_addNew (parents : List String) (v : Value) (key : String) (origin : Origin) :
    SetsOnly key (addNew parents v key origin) := by
  refine ⟨fun old =>
    if (origin = .dotted ↔ parents ≠ []) ∧ old.isNone = true then some v else none, fun es => ?_⟩
  simp only [addNew]
  split <;> rfl

theorem assign_singleton (h : es.lookup k = none) (v : Value) :
    es.assign [k] v = some (es ++ [(k, v)]) := by
  simp [assign, updateAt, h]

/-- What the table of a header holds before the assignments below the header. -/
def headed? : Option Value → Option Entries
  | none => some []
  | some (.table .implied inner) => some inner
  | some _ => none

/-- The table of a header, with what is assigned below it. -/
def addHeaded (body : List (List String × Value)) (key : String) (_ : Origin) (es : Entries) :
    Option Entries :=
  (headed? (es.lookup key)).bind fun base =>
    (base.assignAll body).map fun inner => put key (.table .header inner) es

theorem addTable_eq {path : List String} (hlast : path.getLast? = some key)
    (body : List (List String × Value)) (es : Entries) :
    es.addTable path body = updateAt .implied (addHeaded body key) .header path.dropLast es := by
  simp only [addTable, hlast, Option.bind_eq_bind, Option.bind_some]
  congr 1
  funext origin es
  unfold addHeaded
  cases hkey : es.lookup key with
  | none => simp [headed?, put, hkey, Option.map_eq_bind]
  | some old =>
    cases old with
    | table o inner =>
      cases o with
      | implied => simp [headed?, put, hkey, Option.map_eq_bind]
      | inline => rfl
      | header => rfl
      | dotted => rfl
    | tables => rfl
    | text => rfl
    | integer => rfl
    | float => rfl
    | boolean => rfl
    | moment => rfl
    | array => rfl

theorem setsOnly_addHeaded (body : List (List String × Value)) (key : String) (origin : Origin) :
    SetsOnly key (addHeaded body key origin) := by
  refine ⟨fun old => (headed? old).bind fun base => (base.assignAll body).map (.table .header),
    fun es => ?_⟩
  simp [addHeaded, Option.map_bind, Function.comp_def]

/-- One more element of an array of tables. -/
def addLast (element : Entries) (key : String) (_ : Origin) (es : Entries) : Option Entries :=
  match es.lookup key with
  | none => some (put key (.tables [element]) es)
  | some (.tables elements) => some (put key (.tables (elements ++ [element])) es)
  | some _ => none

theorem addElement_eq {path : List String} (hlast : path.getLast? = some key)
    (body : List (List String × Value)) (es : Entries) :
    es.addElement path body = (assignAll [] body).bind fun element =>
      updateAt .implied (addLast element key) .header path.dropLast es := by
  simp only [addElement, hlast, Option.bind_eq_bind, Option.bind_some]
  congr 1
  funext element
  congr 1
  funext origin es
  unfold addLast
  cases hkey : es.lookup key with
  | none => simp [put, hkey]
  | some old => cases old <;> simp [put, hkey]

theorem setsOnly_addLast (element : Entries) (key : String) (origin : Origin) :
    SetsOnly key (addLast element key origin) := by
  refine ⟨fun
    | none => some (.tables [element])
    | some (.tables elements) => some (.tables (elements ++ [element]))
    | some _ => none, fun es => ?_⟩
  cases hkey : es.lookup key with
  | none => simp [addLast, hkey]
  | some old => cases old <;> simp [addLast, hkey]

theorem exists_setsOnly_assign (path : List String) (v : Value) :
    ∃ key, SetsOnly key fun es => es.assign path v := by
  cases hlast : path.getLast? with
  | none => exact ⟨"", by simpa [assign, hlast] using setsOnly_none ""⟩
  | some key =>
    simp only [assign_eq hlast]
    exact exists_setsOnly_updateAt (setsOnly_addNew path.dropLast v key) _ _ _

/-- A section sets its last key in the table at the end of the path, but not where the key has the
table of a header already. -/
theorem addSection_cases (s : Section) : (∀ es : Entries, es.addSection s = none) ∨
    ∃ key add, (∀ origin, SetsOnly key (add origin)) ∧
      (∀ origin (es inner : Entries), es.lookup key = some (.table .header inner) →
        add origin es = none) ∧
      ∀ es : Entries, es.addSection s = updateAt .implied add .header s.path.dropLast es := by
  cases hlast : s.path.getLast? with
  | none => exact .inl fun es => by simp [addSection, addElement, addTable, hlast]
  | some key =>
    cases helement : s.isElement with
    | false =>
      refine .inr ⟨key, addHeaded s.body key, setsOnly_addHeaded s.body key,
        fun origin es inner h => by simp [addHeaded, headed?, h], fun es => ?_⟩
      simp [addSection, helement, addTable_eq hlast]
    | true =>
      cases hbody : assignAll [] s.body with
      | none => exact .inl fun es => by simp [addSection, helement, addElement_eq hlast, hbody]
      | some element =>
        refine .inr ⟨key, addLast element key, setsOnly_addLast element key,
          fun origin es inner h => by simp [addLast, h], fun es => ?_⟩
        simp [addSection, helement, addElement_eq hlast, hbody]

theorem exists_setsOnly_addSection (s : Section) :
    ∃ key, SetsOnly key fun es => es.addSection s := by
  rcases addSection_cases s with hnone | ⟨key, add, hadd, -, heq⟩
  · simp only [hnone]
    exact ⟨"", setsOnly_none ""⟩
  · simp only [heq]
    exact exists_setsOnly_updateAt hadd _ _ _

/-- What a section does to a root with the table of a header: it leaves the table, or it sets one
key inside of it. -/
theorem addSection_of_header (s : Section) (g : String) :
    (∃ key, key ≠ g ∧ SetsOnly key fun es => es.addSection s) ∨
      ∃ key change, SetsOnly key change ∧ ∀ (es inner : Entries),
        es.lookup g = some (.table .header inner) →
          es.addSection s = (change inner).map fun inner => put g (.table .header inner) es := by
  rcases addSection_cases s with hnone | ⟨key, add, hadd, hheader, heq⟩
  · exact .inr ⟨"", fun _ => none, setsOnly_none "", fun es inner _ => by rw [hnone]; rfl⟩
  · simp only [heq]
    cases s.path.dropLast with
    | nil =>
      by_cases hkey : key = g
      · subst hkey
        exact .inr ⟨"", fun _ => none, setsOnly_none "", hheader .header⟩
      · exact .inl ⟨key, hkey, hadd .header⟩
    | cons first path =>
      by_cases hfirst : first = g
      · subst hfirst
        obtain ⟨inside, hinside⟩ := exists_setsOnly_updateAt hadd .implied .header path
        refine .inr ⟨inside, _, hinside, fun es inner h => ?_⟩
        rw [updateAt, h]
        simp [put, h, Option.map_eq_bind]
      · exact .inl ⟨first, hfirst, setsOnly_updateAt_cons _ _ add first path⟩

/-! ### One more assignment -/

/-! #### Step by step -/

section
variable {α : Type} {add : Entries → α → Option Entries} {items : List α} {P : Entries → Prop}
  {R : Entries → Entries → Prop}

/-- What holds at the end held before, if each step leaves it only where it held. -/
theorem of_foldlM (hback : ∀ a es es₂, add es a = some es₂ → P es₂ → P es)
    (h : items.foldlM add es = some es₂) (hend : P es₂) : P es := by
  induction items generalizing es with
  | nil =>
    obtain rfl := Option.some.inj h
    exact hend
  | cons a items ih =>
    obtain ⟨es₁, ha, h⟩ := Option.bind_eq_some_iff.1 h
    exact hback a es es₁ ha (ih h)

/-- Two tables stay related over steps that keep them so under a condition on what they make. -/
theorem exists_foldlM (hback : ∀ a es es₂, add es a = some es₂ → P es₂ → P es)
    (hstep : ∀ a es es' es₂, R es es' → add es a = some es₂ → P es₂ →
      ∃ es₂', add es' a = some es₂' ∧ R es₂ es₂')
    (hrel : R es es') (h : items.foldlM add es = some es₂) (hend : P es₂) :
    ∃ es₂', items.foldlM add es' = some es₂' ∧ R es₂ es₂' := by
  induction items generalizing es es' with
  | nil =>
    obtain rfl := Option.some.inj h
    exact ⟨es', rfl, hrel⟩
  | cons a items ih =>
    obtain ⟨es₁, ha, h⟩ := Option.bind_eq_some_iff.1 h
    obtain ⟨es₁', ha', hrel₁⟩ := hstep a es es' es₁ hrel ha (of_foldlM hback h hend)
    obtain ⟨es₂', hitems, hrel₂⟩ := ih hrel₁ h
    exact ⟨es₂', Option.bind_eq_some_iff.2 ⟨es₁', ha', hitems⟩, hrel₂⟩

end

/-! #### In one table -/

section
variable {α : Type} {add : Entries → α → Option Entries} {items : List α}

theorem absent_of_foldlM (hadd : ∀ a, ∃ key, SetsOnly key (add · a))
    (h : items.foldlM add es = some es₂) (hx : es₂.lookup x = none) : es.lookup x = none := by
  refine of_foldlM (P := fun es => es.lookup x = none) (fun a es es₂ ha => ?_) h hx
  obtain ⟨key, hset⟩ := hadd a
  exact hset.absent ha

/-- What is added to a table is added to the table with one key more, unless it sets that key. -/
theorem Extends.foldlM (hadd : ∀ a, ∃ key, SetsOnly key (add · a)) (h : Extends k v es es')
    (hitems : items.foldlM add es = some es₂) (habsent : es₂.lookup k = none) :
    ∃ es₂', items.foldlM add es' = some es₂' ∧ Extends k v es₂ es₂' := by
  refine exists_foldlM (P := fun es => es.lookup k = none) (fun a es es₂ ha => ?_)
    (fun a es es' es₂ h ha => ?_) h hitems habsent
  · obtain ⟨key, hset⟩ := hadd a
    exact hset.absent ha
  · obtain ⟨key, hset⟩ := hadd a
    exact h.of_setsOnly hset ha

end

theorem assignAll_eq_foldlM (body : List (List String × Value)) (es : Entries) :
    es.assignAll body = body.foldlM (fun es p => es.assign p.1 p.2) es := by
  induction body generalizing es with
  | nil => rfl
  | cons p body ih =>
    rw [assignAll, List.foldlM_cons]
    simp only [ih]

/-- An assignment to a key that no other assignment sets can stand at any place among them. -/
theorem exists_assignAll_insert {before after : List (List String × Value)}
    (h : es.assignAll (before ++ after) = some es₂) (habsent : es₂.lookup k = none) (v : Value) :
    ∃ es₂', es.assignAll (before ++ ([k], v) :: after) = some es₂' ∧ Extends k v es₂ es₂' := by
  simp only [assignAll_eq_foldlM, List.foldlM_append] at h ⊢
  obtain ⟨es₁, hbefore, hafter⟩ := Option.bind_eq_some_iff.1 h
  have hassign : ∀ p : List String × Value, ∃ key, SetsOnly key fun es => es.assign p.1 p.2 :=
    fun p => exists_setsOnly_assign p.1 p.2
  have hk : es₁.lookup k = none := absent_of_foldlM hassign hafter habsent
  obtain ⟨es₂', hafter', hextends⟩ :=
    (extends_append_singleton hk v).foldlM hassign hafter habsent
  refine ⟨es₂', Option.bind_eq_some_iff.2 ⟨es₁, hbefore, ?_⟩, hextends⟩
  exact Option.bind_eq_some_iff.2 ⟨_, assign_singleton hk v, hafter'⟩

/-! #### In the table of a header -/

/-- The second root differs in the table of one header, which has one key more. -/
structure ExtendsUnder (g k : String) (v : Value) (es es' : Entries) : Prop where
  other : ∀ x, x ≠ g → es'.lookup x = es.lookup x
  exists_inner : ∃ inner inner', es.lookup g = some (.table .header inner) ∧
    es'.lookup g = some (.table .header inner') ∧ Extends k v inner inner'

/-- The header's table, if there is one, does not have the key. -/
def LacksUnder (g k : String) (es : Entries) : Prop :=
  ∀ inner, es.lookup g = some (.table .header inner) → inner.lookup k = none

section
variable {g : String} {s : Section} {ss : List Section}

theorem LacksUnder.of_addSection (h : es.addSection s = some es₂) (hlacks : LacksUnder g k es₂) :
    LacksUnder g k es := by
  intro inner hinner
  rcases addSection_of_header s g with ⟨key, hkey, hset⟩ | ⟨key, change, hset, hsection⟩
  · obtain ⟨w, rfl, -⟩ := hset.exists_put h
    exact hlacks inner (by rw [lookup_put, if_neg hkey.symm, hinner])
  · rw [hsection es inner hinner] at h
    obtain ⟨inner₂, hchange, rfl⟩ := Option.map_eq_some_iff.1 h
    exact hset.absent hchange (hlacks inner₂ (by rw [lookup_put, if_pos rfl]))

theorem ExtendsUnder.addSection (h : ExtendsUnder g k v es es') (hs : es.addSection s = some es₂)
    (hlacks : LacksUnder g k es₂) :
    ∃ es₂', es'.addSection s = some es₂' ∧ ExtendsUnder g k v es₂ es₂' := by
  obtain ⟨inner, inner', hinner, hinner', hextends⟩ := h.exists_inner
  rcases addSection_of_header s g with ⟨key, hkey, hset⟩ | ⟨key, change, hset, hsection⟩
  · obtain ⟨w, rfl, hput⟩ := hset.exists_put hs
    refine ⟨_, hput es' (h.other key hkey), fun x hx => ?_, inner, inner', ?_, ?_, hextends⟩
    · rw [lookup_put, lookup_put, h.other x hx]
    · rw [lookup_put, if_neg hkey.symm, hinner]
    · rw [lookup_put, if_neg hkey.symm, hinner']
  · rw [hsection es inner hinner] at hs
    obtain ⟨inner₂, hchange, rfl⟩ := Option.map_eq_some_iff.1 hs
    have habsent : inner₂.lookup k = none := hlacks inner₂ (by rw [lookup_put, if_pos rfl])
    obtain ⟨inner₂', hchange', hextends₂⟩ := hextends.of_setsOnly hset hchange habsent
    refine ⟨_, by rw [hsection es' inner' hinner', hchange']; rfl, fun x hx => ?_, inner₂, inner₂',
      ?_, ?_, hextends₂⟩
    · rw [lookup_put, lookup_put, if_neg hx, if_neg hx, h.other x hx]
    · rw [lookup_put, if_pos rfl]
    · rw [lookup_put, if_pos rfl]

theorem LacksUnder.of_foldlM (h : ss.foldlM addSection es = some es₂)
    (hlacks : LacksUnder g k es₂) : LacksUnder g k es :=
  Entries.of_foldlM (fun _ _ _ hs hlacks => hlacks.of_addSection hs) h hlacks

theorem ExtendsUnder.foldlM (h : ExtendsUnder g k v es es')
    (hss : ss.foldlM Entries.addSection es = some es₂) (hlacks : LacksUnder g k es₂) :
    ∃ es₂', ss.foldlM Entries.addSection es' = some es₂' ∧ ExtendsUnder g k v es₂ es₂' :=
  exists_foldlM (fun _ _ _ hs hlacks => LacksUnder.of_addSection hs hlacks)
    (fun _ _ _ _ h hs hlacks => h.addSection hs hlacks) h hss hlacks

theorem addTable_singleton (g : String) (body : List (List String × Value)) (es : Entries) :
    es.addTable [g] body = (headed? (es.lookup g)).bind fun base =>
      (base.assignAll body).map fun inner => put g (.table .header inner) es :=
  addTable_eq rfl body es

/-- The table of a header gets one key more by one more assignment below the header. -/
theorem exists_addTable_insert {before after : List (List String × Value)}
    (h : es.addTable [g] (before ++ after) = some es₂) (hlacks : LacksUnder g k es₂) (v : Value) :
    ∃ es₂', es.addTable [g] (before ++ ([k], v) :: after) = some es₂' ∧
      ExtendsUnder g k v es₂ es₂' := by
  rw [addTable_singleton] at h
  obtain ⟨base, hbase, h⟩ := Option.bind_eq_some_iff.1 h
  obtain ⟨inner, hinner, rfl⟩ := Option.map_eq_some_iff.1 h
  have habsent : inner.lookup k = none := hlacks inner (by rw [lookup_put, if_pos rfl])
  obtain ⟨inner', hinner', hextends⟩ := exists_assignAll_insert hinner habsent v
  refine ⟨put g (.table .header inner') es, ?_, fun x hx => ?_, inner, inner', ?_, ?_, hextends⟩
  · rw [addTable_singleton, hbase, Option.bind_some, hinner', Option.map_some]
  · rw [lookup_put, lookup_put, if_neg hx, if_neg hx]
  · rw [lookup_put, if_pos rfl]
  · rw [lookup_put, if_pos rfl]

end

end
end Entries

/-- An assignment as a statement. -/
def Statement.ofAssignment (p : List String × Value) : Statement := .assign p.1 p.2

section
variable {front back : List Statement} {body : List (List String × Value)} {es : Entries}
  {g k : String}

theorem foldr_push_ofAssignment (body : List (List String × Value)) (o : Outline) :
    (body.map Statement.ofAssignment).foldr Outline.push o = ⟨body ++ o.top, o.sections⟩ := by
  induction body with
  | nil => rfl
  | cons p body ih =>
    rw [List.map_cons, List.foldr_cons, ih]
    rfl

theorem foldr_push_sections (front : List Statement) (sections : List Section) :
    front.foldr Outline.push ⟨[], sections⟩ =
      ⟨(outline front).top, (outline front).sections ++ sections⟩ := by
  induction front with
  | nil => rfl
  | cons s front ih =>
    rw [List.foldr_cons, ih]
    cases s <;> rfl

theorem outline_append_header (front back : List Statement) (g : String)
    (body : List (List String × Value)) :
    outline (front ++ .table [g] :: (body.map Statement.ofAssignment ++ back)) =
      ⟨(outline front).top, (outline front).sections ++
        ⟨false, [g], body ++ (outline back).top⟩ :: (outline back).sections⟩ := by
  rw [outline, List.foldr_append, List.foldr_cons, List.foldr_append, foldr_push_ofAssignment]
  exact foldr_push_sections front _

/-- One more assignment below a header adds its key to the table of the header. -/
theorem exists_entries?_insert
    (h : (outline (front ++ .table [g] :: (body.map Statement.ofAssignment ++ back))).entries? =
      some es) (hlacks : Entries.LacksUnder g k es) (v : Value) :
    ∃ es', (outline (front ++ .table [g] ::
        (body.map Statement.ofAssignment ++ .assign [k] v :: back))).entries? = some es' ∧
      Entries.ExtendsUnder g k v es es' := by
  have hpush : outline (.assign [k] v :: back) =
      ⟨([k], v) :: (outline back).top, (outline back).sections⟩ := rfl
  rw [outline_append_header] at h ⊢
  rw [hpush]
  obtain ⟨es₀, htop, h⟩ := Option.bind_eq_some_iff.1 h
  simp only [List.foldlM_append, List.foldlM_cons] at h
  obtain ⟨es₁, hfront, h⟩ := Option.bind_eq_some_iff.1 h
  obtain ⟨es₂, hheader, hback⟩ := Option.bind_eq_some_iff.1 h
  obtain ⟨es₂', hheader', h₂⟩ :=
    Entries.exists_addTable_insert hheader (hlacks.of_foldlM hback) v
  obtain ⟨es', hback', h'⟩ := h₂.foldlM hback hlacks
  refine ⟨es', Option.bind_eq_some_iff.2 ⟨es₀, htop, ?_⟩, h'⟩
  simp only [List.foldlM_append, List.foldlM_cons]
  exact Option.bind_eq_some_iff.2 ⟨es₁, hfront, Option.bind_eq_some_iff.2 ⟨es₂', hheader', hback'⟩⟩

/-- One more assignment above all headers adds its key to the root. -/
theorem exists_entries?_insert_top
    (h : (outline (body.map Statement.ofAssignment ++ back)).entries? = some es)
    (habsent : es.lookup k = none) (v : Value) :
    ∃ es', (outline (body.map Statement.ofAssignment ++ .assign [k] v :: back)).entries? =
        some es' ∧ Entries.Extends k v es es' := by
  have houtline (back : List Statement) : outline (body.map Statement.ofAssignment ++ back) =
      ⟨body ++ (outline back).top, (outline back).sections⟩ := by
    rw [outline, List.foldr_append, foldr_push_ofAssignment]
    rfl
  have hpush : outline (.assign [k] v :: back) =
      ⟨([k], v) :: (outline back).top, (outline back).sections⟩ := rfl
  rw [houtline] at h ⊢
  rw [hpush]
  obtain ⟨es₁, htop, hsections⟩ := Option.bind_eq_some_iff.1 h
  have hsection := Entries.exists_setsOnly_addSection
  obtain ⟨es₁', htop', h₁⟩ := Entries.exists_assignAll_insert htop
    (Entries.absent_of_foldlM hsection hsections habsent) v
  obtain ⟨es', hsections', h'⟩ := h₁.foldlM hsection hsections habsent
  exact ⟨es', Option.bind_eq_some_iff.2 ⟨es₁', htop', hsections'⟩, h'⟩

end

end PhraseArithmetic.Toml
