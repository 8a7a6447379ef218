import SchedAudit.Event
import SchedAudit.Proofs.Decimal.Nearest
import SchedAudit.Proofs.Json.Members
import SchedAudit.Proofs.Json.Writing

/-!
# Traces are read as they are written

An entry is written as an object: a member for its time, one for the kind of its event, and those of the
fields of that kind, in any order and with any further members between them. `Trace.parse?_written` says
that a list of entries is read back from what is written for it, and that one bad element makes the whole
trace unreadable.

What is known of an event is stated twice in the model, by `Event.kind` with `Event.fields` and by
`Event.ofKind?`, which reads. `Event.ofKind?_eq_some_iff` says that the two agree on all kinds, and
everything after it speaks of kinds and fields alone.

Reading is not as it is meant to be in two respects (`not_parse?_written`). A kind may also be told by
its place among all kinds, and members that nothing is read from must have values all the same.
-/

namespace SchedAudit

variable {members : List (String × Json)} {name : String} {d : Datum} {e : Event}

/-! ## How an entry is written -/

/-- The members that write a field: one under its name, or none where the field may be left out. -/
inductive Datum.WrittenBy (name : String) : Datum → List (String × Json) → Prop where
  | number {n : Nat} (h : n < UInt64.size) : WrittenBy name (.number n) [(name, Json.ofNat n)]
  | real {x : Float} {num : Numeral} (h : num.toFloat? = some x) :
      WrittenBy name (.real x) [(name, .number num)]
  | given {x : Float} {num : Numeral} (h : num.toFloat? = some x) :
      WrittenBy name (.optional (some x)) [(name, .number num)]
  | null : WrittenBy name (.optional none) [(name, .null)]
  | leftOut : WrittenBy name (.optional none) []

/-- The members that write the fields of an event. -/
inductive Event.FieldsWrittenBy : List (String × Datum) → List (String × Json) → Prop where
  | nil : FieldsWrittenBy [] []
  | cons {name : String} {d : Datum} {fields : List (String × Datum)}
      {members rest : List (String × Json)} (first : d.WrittenBy name members)
      (others : FieldsWrittenBy fields rest) :
      FieldsWrittenBy ((name, d) :: fields) (members ++ rest)

/-- The names of the members that belong to an entry with this event. -/
def Event.ownNames (e : Event) : List String := "time" :: "type" :: e.fields.map (·.1)

/-- An object writes an entry: its members are those of the entry and further ones, in any order. The
values of the further ones are such as are `passed` over. -/
inductive Entry.WrittenWith (passed : Json → Prop) : Entry → Json → Prop where
  | object {x : Float} {e : Event} {num : Numeral} {own further members : List (String × Json)}
      (time : num.toFloat? = some x) (fields : Event.FieldsWrittenBy e.fields own)
      (passedOver : ∀ m ∈ further, m.1 ∉ e.ownNames ∧ passed m.2)
      (order : members.Perm
        (("time", .number num) :: ("type", .text (some e.kind)) :: (own ++ further))) :
      WrittenWith passed ⟨x, e⟩ (Json.ofMembers members)

/-- An object writes an entry. Further members are passed over if their texts pair up to characters,
their numbers are within the doubles, and they are not nested too deeply. -/
abbrev Entry.WrittenBy : Entry → Json → Prop :=
  WrittenWith fun v => v.isSound = true ∧ v.depth ≤ depthLimit

/-! ## What is wrong with an element -/

/-- What a field holds. -/
inductive Shape where
  | number
  | real
  | optional
deriving DecidableEq

/-- What the field of a value holds. -/
def Datum.shape : Datum → Shape
  | .number _ => .number
  | .real _ => .real
  | .optional _ => .optional

/-- The names of the fields of an event, and what they hold. -/
def Event.shapes (e : Event) : List (String × Shape) := e.fields.map fun f => (f.1, f.2.shape)

/-- A value is of the type of a field. -/
inductive Shape.Admits : Shape → Json → Prop where
  | number {n : Nat} {num : Numeral} (h : num.toNat? = some n) : Admits .number (.number num)
  | real {x : Float} {num : Numeral} (h : num.toFloat? = some x) : Admits .real (.number num)
  | given {x : Float} {num : Numeral} (h : num.toFloat? = some x) : Admits .optional (.number num)
  | null : Admits .optional .null

/-- What is wrong with the values that are given for a field. -/
inductive Shape.Faulty : Shape → List Json → Prop where
  | lacking {s : Shape} (h : s ≠ .optional) : Faulty s []
  | repeated {s : Shape} {v w : Json} {rest : List Json} : Faulty s (v :: w :: rest)
  | wrongType {s : Shape} {v : Json} (h : ¬s.Admits v) : Faulty s [v]

/-- A value of `type` stands for a kind: it is its name, or its place among all kinds. -/
inductive Event.TypeValue (kind : String) : Json → Prop where
  | name : TypeValue kind (.text (some kind))
  | place {i : Nat} {num : Numeral} (h : num.toNat? = some i) (hkind : kinds[i]? = some kind) :
      TypeValue kind (.number num)

/-- An element of a trace is faulty, when values of `type` stand for kinds in some way. -/
inductive Entry.FaultyWith (standsFor : String → Json → Prop) : Json → Prop where
  | noObject {v : Json} (h : ∀ members, v ≠ .object members) : FaultyWith standsFor v
  | time {members : List (Option String × Json)}
      (h : Shape.real.Faulty (Json.givenFor "time" members)) : FaultyWith standsFor (.object members)
  | lackingType {members : List (Option String × Json)} (h : Json.givenFor "type" members = []) :
      FaultyWith standsFor (.object members)
  | repeatedType {members : List (Option String × Json)} {v w : Json} {rest : List Json}
      (h : Json.givenFor "type" members = v :: w :: rest) : FaultyWith standsFor (.object members)
  | unknownType {members : List (Option String × Json)} {v : Json}
      (h : Json.givenFor "type" members = [v]) (hv : ∀ e : Event, ¬standsFor e.kind v) :
      FaultyWith standsFor (.object members)
  | field {members : List (Option String × Json)} {v : Json} {e : Event} {name : String} {s : Shape}
      (htype : Json.givenFor "type" members = [v]) (hv : standsFor e.kind v)
      (hs : (name, s) ∈ e.shapes) (h : s.Faulty (Json.givenFor name members)) :
      FaultyWith standsFor (.object members)

/-- An element of a trace is faulty. -/
abbrev Entry.Faulty : Json → Prop := FaultyWith Event.TypeValue

/-! ## Kinds and fields -/

namespace Event

/-- What a reader has to answer for a field. -/
def FieldReader.Reads (r : FieldReader) (name : String) : Datum → Prop
  | .number n => r.number? name = some n
  | .real x => r.real? name = some x
  | .optional x => r.optional? name = some x

/-- An event is read where the kind is its own and all its fields are read. -/
theorem ofKind?_eq_some_iff {r : FieldReader} {kind : String} :
    ofKind? r kind = some e ↔ e.kind = kind ∧ ∀ f ∈ e.fields, r.Reads f.1 f.2 := by
  constructor
  · intro h
    unfold ofKind? at h
    -- Of each kind, the fields are read one after the other.
    split at h <;>
      simp only [Option.pure_def, Option.bind_eq_bind, Option.bind_eq_some_iff, Option.some.injEq,
        reduceCtorEq] at h <;>
      grind [FieldReader.Reads, Event.kind, fields]
  · rintro ⟨rfl, h⟩
    cases e <;> simp_all [ofKind?, Event.kind, fields, FieldReader.Reads]

/-- A reader that finds every field. -/
def FieldReader.blank : FieldReader := ⟨fun _ => some 0, fun _ => some 0.0, fun _ => some none⟩

theorem map_shapes_ofKind?_blank (e : Event) :
    (ofKind? .blank e.kind).map shapes = some e.shapes := by
  cases e <;> rfl

/-- Events of one kind have the same fields. -/
theorem shapes_eq_of_kind_eq {e' : Event} (h : e.kind = e'.kind) : e.shapes = e'.shapes := by
  have he := map_shapes_ofKind?_blank e
  rw [h, map_shapes_ofKind?_blank] at he
  exact (Option.some.inj he).symm

theorem nodup_ownNames (e : Event) : e.ownNames.Nodup := by
  cases e <;> simp [ownNames, fields]

end Event

/-! ## Reading what is written -/

/-- A natural number of 64 bits is read as it is written, be it as a natural number or as a double. -/
theorem Numeral.toNat?_digits {n : Nat} (h : n < UInt64.size) :
    (⟨false, n, 0, true⟩ : Numeral).toNat? = some n := by
  simp [toNat?, h]

theorem Numeral.isSome_toFloat?_digits {n : Nat} (h : n < UInt64.size) :
    (⟨false, n, 0, true⟩ : Numeral).toFloat?.isSome = true := by
  have hfinite : (Decimal.nearest n 0).isInf = false := Decimal.isInf_nearest h
  simp [toFloat?, hfinite]

namespace Datum.WrittenBy

variable {own : List (String × Json)}

theorem key_eq (h : d.WrittenBy name own) : ∀ m ∈ own, m.1 = name := by
  cases h <;> simp

theorem isSound (h : d.WrittenBy name own) :
    ∀ m ∈ own, m.2.isSound = true ∧ m.2.depth ≤ Entry.depthLimit := by
  cases h with
  | number h => simp [Json.ofNat, Json.isSound, Json.depth, Numeral.isSome_toFloat?_digits h]
  | real h => simp [Json.isSound, Json.depth, h]
  | given h => simp [Json.isSound, Json.depth, h]
  | null => simp [Json.isSound, Json.depth]
  | leftOut => simp

/-- At most one member writes a field, so it does not matter where it stands. -/
theorem eq_of_perm (h : d.WrittenBy name own) {values : List Json}
    (hvalues : values.Perm (own.map (·.2))) : values = own.map (·.2) := by
  cases h with
  | leftOut => exact hvalues.eq_nil
  | _ => exact List.perm_singleton.1 hvalues

theorem reads (h : d.WrittenBy name own) (hvalues : Json.valuesOf name members = own.map (·.2)) :
    (Event.memberReader members).Reads name d := by
  cases h with
  | number h =>
    have hmember := Json.member?_eq_some_some_iff.2 hvalues
    simp [Event.FieldReader.Reads, Event.memberReader, hmember, Json.ofNat, Json.nat?,
      Numeral.toNat?_digits h]
  | real h =>
    have hmember := Json.member?_eq_some_some_iff.2 hvalues
    simp [Event.FieldReader.Reads, Event.memberReader, hmember, Json.float?, h]
  | given h =>
    have hmember := Json.member?_eq_some_some_iff.2 hvalues
    simp [Event.FieldReader.Reads, Event.memberReader, hmember, Json.float?, h]
  | null =>
    have hmember := Json.member?_eq_some_some_iff.2 hvalues
    simp [Event.FieldReader.Reads, Event.memberReader, hmember]
  | leftOut =>
    have hmember := Json.member?_eq_some_none_iff.2 hvalues
    simp [Event.FieldReader.Reads, Event.memberReader, hmember]

end Datum.WrittenBy

namespace Event.FieldsWrittenBy

variable {fields : List (String × Datum)} {own : List (String × Json)}

theorem key_mem (h : FieldsWrittenBy fields own) : ∀ m ∈ own, m.1 ∈ fields.map (·.1) := by
  induction h with
  | nil => simp
  | cons first others ih =>
    intro m hm
    rcases List.mem_append.1 hm with hm | hm
    · exact first.key_eq m hm ▸ List.mem_cons_self
    · exact List.mem_cons_of_mem _ (ih m hm)

theorem isSound (h : FieldsWrittenBy fields own) :
    ∀ m ∈ own, m.2.isSound = true ∧ m.2.depth ≤ Entry.depthLimit := by
  induction h with
  | nil => simp
  | cons first others ih =>
    intro m hm
    rcases List.mem_append.1 hm with hm | hm
    · exact first.isSound m hm
    · exact ih m hm

/-- Under the name of a field stand the members that write it, and no others. -/
theorem exists_written (h : FieldsWrittenBy fields own) (hnodup : (fields.map (·.1)).Nodup) :
    ∀ f ∈ fields, ∃ members, f.2.WrittenBy f.1 members ∧
      Json.valuesOf f.1 own = members.map (·.2) := by
  induction h with
  | nil => simp
  | @cons name d fields members rest first others ih =>
    rw [List.map_cons, List.nodup_cons] at hnodup
    have hself : Json.valuesOf name members = members.map (·.2) := by
      rw [Json.valuesOf, List.filter_eq_self.2 fun m hm => by simpa using first.key_eq m hm]
    intro f hf
    rw [Json.valuesOf_append]
    rcases List.mem_cons.1 hf with rfl | hf
    · refine ⟨members, first, ?_⟩
      rw [hself, Json.valuesOf_eq_nil, List.append_nil]
      rintro m hm rfl
      exact hnodup.1 (others.key_mem m hm)
    · obtain ⟨written, hwritten, hvalues⟩ := ih hnodup.2 f hf
      refine ⟨written, hwritten, ?_⟩
      rw [hvalues, Json.valuesOf_eq_nil, List.nil_append]
      rintro m hm heq
      rw [first.key_eq m hm] at heq
      exact hnodup.1 (heq ▸ List.mem_map.2 ⟨f, hf, rfl⟩)

end Event.FieldsWrittenBy

section Members

variable {x : Float} {num : Numeral} {own further : List (String × Json)}

/-- What stands under the names of an entry that an object writes. -/
theorem Entry.values_of_perm (fields : Event.FieldsWrittenBy e.fields own)
    (hfurther : ∀ m ∈ further, m.1 ∉ e.ownNames)
    (order : members.Perm
      (("time", .number num) :: ("type", .text (some e.kind)) :: (own ++ further))) :
    Json.valuesOf "time" members = [.number num] ∧
      Json.valuesOf "type" members = [.text (some e.kind)] ∧
        ∀ f ∈ e.fields, ∃ written, f.2.WrittenBy f.1 written ∧
          Json.valuesOf f.1 members = written.map (·.2) := by
  have hnodup := e.nodup_ownNames
  rw [Event.ownNames, List.nodup_cons, List.nodup_cons, List.mem_cons, not_or] at hnodup
  obtain ⟨⟨htimeType, htime⟩, htype, hfields⟩ := hnodup
  have hpassed (name : String) (hname : name ∈ e.ownNames) : Json.valuesOf name further = [] :=
    Json.valuesOf_eq_nil fun m hm heq => hfurther m hm (heq ▸ hname)
  have hown (name : String) (hname : name ∉ e.fields.map (·.1)) : Json.valuesOf name own = [] :=
    Json.valuesOf_eq_nil fun m hm heq => hname (heq ▸ fields.key_mem m hm)
  refine ⟨?_, ?_, fun f hf => ?_⟩
  · have hperm := Json.valuesOf_perm order "time"
    rw [Json.valuesOf_cons_self, Json.valuesOf_cons_of_ne (Ne.symm htimeType), Json.valuesOf_append,
      hown _ htime, hpassed "time" List.mem_cons_self] at hperm
    exact List.perm_singleton.1 hperm
  · have hperm := Json.valuesOf_perm order "type"
    rw [Json.valuesOf_cons_of_ne htimeType, Json.valuesOf_cons_self, Json.valuesOf_append,
      hown _ htype, hpassed "type" (List.mem_cons_of_mem _ List.mem_cons_self)] at hperm
    exact List.perm_singleton.1 hperm
  · have hname : f.1 ∈ e.fields.map (·.1) := List.mem_map_of_mem hf
    obtain ⟨written, hwritten, hvalues⟩ := fields.exists_written hfields f hf
    refine ⟨written, hwritten, hwritten.eq_of_perm ?_⟩
    have hnotTime : "time" ≠ f.1 := fun heq => htime (heq ▸ hname)
    have hnotType : "type" ≠ f.1 := fun heq => htype (heq ▸ hname)
    have hperm := Json.valuesOf_perm order f.1
    rwa [Json.valuesOf_cons_of_ne hnotTime, Json.valuesOf_cons_of_ne hnotType, Json.valuesOf_append, hvalues,
      hpassed f.1 (List.mem_cons_of_mem _ (List.mem_cons_of_mem _ hname)), List.append_nil] at hperm

theorem Entry.isSound_of_perm (fields : Event.FieldsWrittenBy e.fields own)
    (hfurther : ∀ m ∈ further, m.2.isSound = true ∧ m.2.depth ≤ depthLimit)
    (order : members.Perm
      (("time", .number num) :: ("type", .text (some e.kind)) :: (own ++ further))) :
    ∀ m ∈ members.filter (·.1 != "time"), m.2.isSound = true ∧ m.2.depth ≤ depthLimit := by
  intro m hm
  obtain ⟨hm, htime⟩ := List.mem_filter.1 hm
  simp only [order.mem_iff, List.mem_cons, List.mem_append] at hm
  rcases hm with rfl | rfl | hm | hm
  · simp at htime
  · simp [Json.isSound, Json.depth]
  · exact fields.isSound m hm
  · exact hfurther m hm

end Members

theorem Event.ne_time_of_mem {f : String × Datum} (hf : f ∈ e.fields) : f.1 ≠ "time" := by
  have hnodup := e.nodup_ownNames
  rw [ownNames, List.nodup_cons] at hnodup
  rintro heq
  exact hnodup.1 (List.mem_cons_of_mem _ (List.mem_map.2 ⟨f, hf, heq⟩))

/-- An entry is read from what is written for it. -/
theorem Entry.ofJson?_of_writtenBy {entry : Entry} {v : Json} (h : entry.WrittenBy v) :
    ofJson? v = some entry := by
  cases h with
  | @object x e num own further members time fields passedOver order =>
    obtain ⟨htime, htype, hfields⟩ := values_of_perm fields (fun m hm => (passedOver m hm).1) order
    have hsound : ((members.filter (·.1 != "time")).all fun m =>
        m.2.isSound && m.2.depth ≤ depthLimit) = true :=
      List.all_eq_true.2 fun m hm => by
        simpa using isSound_of_perm fields (fun m hm => (passedOver m hm).2) order m hm
    -- Once the time is read, the other names are looked up among the other members.
    have htypeLeft : Json.valuesOf "type" (members.filter (·.1 != "time")) =
        [.text (some e.kind)] := by
      rw [Json.valuesOf_filter_ne (by decide), htype]
    have hevent : Event.ofKind? (Event.memberReader (members.filter (·.1 != "time"))) e.kind =
        some e := by
      refine Event.ofKind?_eq_some_iff.2 ⟨rfl, fun f hf => ?_⟩
      obtain ⟨written, hwritten, hvalues⟩ := hfields f hf
      refine hwritten.reads ?_
      rw [Json.valuesOf_filter_ne (Event.ne_time_of_mem hf), hvalues]
    have hread : Json.float? (.number num) = some x := time
    have hkind : Event.kindOfJson? (.text (some e.kind)) = some e.kind := rfl
    simp [Json.ofMembers, ofJson?, Json.namedMembers?_map, Json.member?_eq_some_some_iff.2 htime,
      Json.member?_eq_some_some_iff.2 htypeLeft, hsound, hread, hkind, hevent]

/-! ## Refusing what is faulty -/

theorem Shape.admits_of_nat? {v : Json} {n : Nat} (h : v.nat? = some n) : Shape.number.Admits v := by
  cases v with
  | number num => exact .number h
  | _ => cases h

theorem Shape.admits_of_float? {v : Json} {x : Float} (h : v.float? = some x) :
    Shape.real.Admits v ∧ Shape.optional.Admits v := by
  cases v with
  | number num => exact ⟨.real h, .given h⟩
  | _ => cases h

/-- A field that is read is not faulty. -/
theorem Event.FieldReader.Reads.not_faulty (h : (Event.memberReader members).Reads name d) :
    ¬d.shape.Faulty (Json.valuesOf name members) := by
  intro hfaulty
  generalize hvalues : Json.valuesOf name members = values at hfaulty
  cases hfaulty with
  | lacking hshape =>
    have hmember := Json.member?_eq_some_none_iff.2 hvalues
    cases d with
    | number | real => simp [Reads, memberReader, hmember] at h
    | optional => exact hshape rfl
  | repeated =>
    have hmember : Json.member? name members = none := by simp [Json.member?, hvalues]
    cases d <;> simp [Reads, memberReader, hmember] at h
  | @wrongType v hv =>
    have hmember := Json.member?_eq_some_some_iff.2 hvalues
    cases d with
    | number n =>
      simp only [Reads, memberReader, hmember, Option.bind_eq_bind, Option.bind_some] at h
      exact hv (Shape.admits_of_nat? h)
    | real x =>
      simp only [Reads, memberReader, hmember, Option.bind_eq_bind, Option.bind_some] at h
      exact hv (Shape.admits_of_float? h).1
    | optional x =>
      cases v with
      | null => exact hv .null
      | _ =>
        simp only [Reads, memberReader, hmember, Option.bind_eq_bind, Option.bind_some,
          Option.bind_eq_some_iff] at h
        obtain ⟨x, hx, -⟩ := h
        exact hv (Shape.admits_of_float? hx).2

theorem Event.kindOfJson?_eq_some_iff {v : Json} {kind : String} :
    kindOfJson? v = some kind ↔ TypeValue kind v := by
  constructor
  · intro h
    cases v with
    | text t =>
      obtain rfl : t = some kind := h
      exact .name
    | number num =>
      simp only [kindOfJson?, Option.bind_eq_bind, Option.bind_eq_some_iff] at h
      obtain ⟨i, hi, hkind⟩ := h
      exact .place hi hkind
    | _ => cases h
  · rintro (_ | ⟨hi, hkind⟩)
    · rfl
    · simp [kindOfJson?, hi, hkind]

/-- What an object holds that an entry is read from. -/
theorem Entry.of_ofJson?_eq_some {raw : List (Option String × Json)} {entry : Entry}
    (h : ofJson? (.object raw) = some entry) :
    (∃ t, Json.givenFor "time" raw = [t] ∧ t.float? = some entry.time) ∧
      (∃ v, Json.givenFor "type" raw = [v] ∧ Event.TypeValue entry.event.kind v) ∧
        ∀ f ∈ entry.event.fields, ¬f.2.shape.Faulty (Json.givenFor f.1 raw) := by
  simp only [ofJson?, Option.bind_eq_bind, Option.bind_eq_some_iff] at h
  obtain ⟨members, hmembers, _, htime, t, rfl, x, hx, h⟩ := h
  split_ifs at h with hsound
  simp only [Option.bind_eq_some_iff, Option.pure_def, Option.some.injEq] at h
  obtain ⟨_, htype, v, rfl, kind, hkind, e, he, rfl⟩ := h
  have hgiven := Json.valuesOf_of_namedMembers? hmembers
  obtain ⟨rfl, hreads⟩ := Event.ofKind?_eq_some_iff.1 he
  have htypeValues := Json.member?_eq_some_some_iff.1 htype
  rw [Json.valuesOf_filter_ne (by decide), hgiven] at htypeValues
  refine ⟨⟨t, ?_, hx⟩, ⟨v, htypeValues, Event.kindOfJson?_eq_some_iff.1 hkind⟩, fun f hf => ?_⟩
  · rw [← hgiven]
    exact Json.member?_eq_some_some_iff.1 htime
  · have hfaultless := (hreads f hf).not_faulty
    rwa [Json.valuesOf_filter_ne (Event.ne_time_of_mem hf), hgiven] at hfaultless

theorem Entry.ofJson?_of_faulty {v : Json} (h : Faulty v) : ofJson? v = none := by
  by_contra hsome
  obtain ⟨entry, hentry⟩ := Option.ne_none_iff_exists'.1 hsome
  cases v with
  | object raw =>
    obtain ⟨⟨t, htime, hx⟩, ⟨v, htype, hv⟩, hfields⟩ := of_ofJson?_eq_some hentry
    cases h with
    | noObject h => exact h raw rfl
    | time h =>
      rw [htime] at h
      cases h with
      | wrongType h => exact h (Shape.admits_of_float? hx).1
    | lackingType h => simp [htype] at h
    | repeatedType h => simp [htype] at h
    | unknownType h hunknown =>
      obtain rfl : v = _ := List.singleton_inj.1 (htype.symm.trans h)
      exact hunknown entry.event hv
    | @field _ w e name s h hw hs hfaulty =>
      obtain rfl : v = w := List.singleton_inj.1 (htype.symm.trans h)
      have hkind : entry.event.kind = e.kind := Option.some.inj
        ((Event.kindOfJson?_eq_some_iff.2 hv).symm.trans (Event.kindOfJson?_eq_some_iff.2 hw))
      rw [← Event.shapes_eq_of_kind_eq hkind] at hs
      obtain ⟨f, hf, heq⟩ := List.mem_map.1 hs
      cases heq
      exact hfields f hf hfaulty
  | _ => cases hentry

/-! ## Whole traces -/

namespace Trace

theorem mapM_of_writtenBy {trace : Trace} {elements : List Json}
    (h : List.Forall₂ Entry.WrittenBy trace elements) :
    elements.mapM Entry.ofJson? = some trace := by
  induction h with
  | nil => rfl
  | cons first others ih => simp [List.mapM_cons, Entry.ofJson?_of_writtenBy first, ih]

theorem mapM_of_faulty {elements : List Json} {v : Json} (hv : v ∈ elements)
    (h : Entry.Faulty v) : elements.mapM Entry.ofJson? = none := by
  induction elements with
  | nil => cases hv
  | cons w rest ih =>
    rw [List.mapM_cons]
    rcases List.mem_cons.1 hv with rfl | hv
    · rw [Entry.ofJson?_of_faulty h]
      rfl
    · rw [ih hv]
      cases Entry.ofJson? w <;> rfl

/-- **Traces are read as they are written.** From a text that writes an array, the entries are read that
its elements write, whatever the order of their members and whatever further members they have. If one
element is faulty nothing is read. -/
theorem parse?_written {source : String} {elements : List Json}
    (h : (Json.array elements).WrittenBy source) :
    (∀ trace : Trace, List.Forall₂ Entry.WrittenBy trace elements → parse? source = some trace) ∧
      ((∃ v ∈ elements, Entry.Faulty v) → parse? source = none) := by
  have hparse : parse? source = elements.mapM Entry.ofJson? := by
    rw [parse?, Json.parse?_of_writtenBy h]
    rfl
  rw [hparse]
  refine ⟨fun trace htrace => mapM_of_writtenBy htrace, ?_⟩
  rintro ⟨v, hv, hfaulty⟩
  exact mapM_of_faulty hv hfaulty

/-- Two entries. -/
def plainTrace : Trace := [⟨0.0, .virtualTimeUpdate 3 0.0 none⟩, ⟨0.0, .resched⟩]

/-- The entries as they may be written: with their members out of order, without the field that may be
left out, and with members that do not belong to their kinds. -/
def shuffledElements : List Json :=
  [.ofMembers [("note", .array [.null, .object []]), ("virtual_time", .ofNat 0), ("tid", .ofNat 3),
      ("type", .ofString "virtual_time_update"), ("time", .ofNat 0)],
    .ofMembers [("deadline", .bool true), ("type", .ofString "resched"), ("time", .ofNat 0)]]

/-- An element with a field of the wrong type. -/
def undatedElement : Json :=
  .ofMembers [("time", .ofNat 0), ("type", .ofString "serv_postpone"), ("tid", .ofNat 3),
    ("deadline", .null)]

theorem writtenBy_shuffledElements : List.Forall₂ Entry.WrittenBy plainTrace shuffledElements := by
  have hzero : (⟨false, 0, 0, true⟩ : Numeral).toFloat? = some 0.0 := Numeral.toFloat?_zero 0 true
  have hsample : Event.FieldsWrittenBy (Event.virtualTimeUpdate 3 0.0 none).fields
      [("tid", .ofNat 3), ("virtual_time", .ofNat 0)] :=
    .cons (.number (by decide)) (.cons (.real hzero) (.cons .leftOut .nil))
  have hnote : ∀ m ∈ [("note", Json.array [.null, .object []])],
      m.1 ∉ (Event.virtualTimeUpdate 3 0.0 none).ownNames ∧ m.2.isSound = true ∧
        m.2.depth ≤ Entry.depthLimit := by
    simp [Event.ownNames, Event.fields, Json.isSound, Json.allElementsSound, Json.allMembersSound,
      Json.depth, Json.depthOfElements, Json.depthOfMembers, Entry.depthLimit]
  have hdeadline : ∀ m ∈ [("deadline", Json.bool true)],
      m.1 ∉ Event.resched.ownNames ∧ m.2.isSound = true ∧ m.2.depth ≤ Entry.depthLimit := by
    simp [Event.ownNames, Event.fields, Json.isSound, Json.depth]
  exact .cons (.object hzero hsample hnote (List.reverse_perm _).symm)
    (.cons (.object hzero .nil hdeadline (List.reverse_perm _).symm) .nil)

theorem faulty_undatedElement : Entry.Faulty undatedElement := by
  have hdeadline : ("deadline", Shape.real) ∈ (Event.servPostpone 3 0.0).shapes :=
    List.mem_cons_of_mem _ List.mem_cons_self
  have hnull : ¬Shape.real.Admits .null := fun h => by cases h
  exact .field rfl .name hdeadline (.wrongType hnull)

theorem parse?_written_shuffledElements :
    parse? (Json.array shuffledElements).render = some plainTrace ∧
      parse? (Json.array (shuffledElements ++ [undatedElement])).render = none := by
  have hwritten : (Json.array shuffledElements).WrittenBy (Json.array shuffledElements).render :=
    Json.writtenBy_render (by cbv)
  have hundated : (Json.array (shuffledElements ++ [undatedElement])).WrittenBy
      (Json.array (shuffledElements ++ [undatedElement])).render :=
    Json.writtenBy_render (by cbv)
  exact ⟨(parse?_written hwritten).1 plainTrace writtenBy_shuffledElements,
    (parse?_written hundated).2 ⟨undatedElement, List.mem_append_right _ List.mem_cons_self,
      faulty_undatedElement⟩⟩

/-- An element whose kind is told by its place among all kinds. -/
def placedElement : Json := .ofMembers [("time", .number ⟨false, 0, -1, false⟩), ("type", .ofNat 19)]

/-- An element with a further member, which is a number beyond the doubles. -/
def overflowingElement : Json :=
  .ofMembers [("time", .number ⟨false, 0, -1, false⟩), ("type", .ofString "resched"),
    ("x", .number ⟨false, 1, 999, false⟩)]

theorem writtenBy_render_placedElement :
    (Json.array [placedElement]).WrittenBy (Json.array [placedElement]).render :=
  Json.writtenBy_render (by cbv)

theorem writtenBy_render_overflowingElement :
    (Json.array [overflowingElement]).WrittenBy (Json.array [overflowingElement]).render :=
  Json.writtenBy_render (by cbv)

theorem parse?_placedElement :
    parse? (Json.array [placedElement]).render = some [⟨0.0, .resched⟩] := by
  have hkind : Event.kindOfJson? (.ofNat 19) = some Event.resched.kind :=
    Event.kindOfJson?_eq_some_iff.2 (.place (Numeral.toNat?_digits (by decide)) rfl)
  have hevent (r : Event.FieldReader) : Event.ofKind? r Event.resched.kind = some .resched :=
    Event.ofKind?_eq_some_iff.2 ⟨rfl, fun f hf => absurd hf List.not_mem_nil⟩
  have hsound : (⟨false, 19, 0, true⟩ : Numeral).toFloat?.isSome = true :=
    Numeral.isSome_toFloat?_digits (by decide)
  rw [parse?, Json.parse?_of_writtenBy writtenBy_render_placedElement]
  rw [Json.ofNat] at hkind
  simp [placedElement, Json.ofNat, Json.ofMembers, Json.listOf?, Entry.ofJson?, Json.namedMembers?,
    Json.member?, Json.valuesOf, Json.float?, Json.isSound, Json.depth, hkind, hsound, hevent]

theorem parse?_overflowingElement : parse? (Json.array [overflowingElement]).render = none := by
  have hinfinite : (⟨false, 1, 999, false⟩ : Numeral).toFloat? = none := by
    have hlength : (Nat.toDigits 10 1).length = 1 := rfl
    have hlimit : (Float.ofScientific 1 false 310).isInf = true := by decide +kernel
    simp [Numeral.toFloat?, Decimal.nearest, Decimal.digitCount, hlength, hlimit]
  rw [parse?, Json.parse?_of_writtenBy writtenBy_render_overflowingElement]
  simp [overflowingElement, Json.ofMembers, Json.ofString, Json.listOf?, Entry.ofJson?,
    Json.namedMembers?, Json.member?, Json.valuesOf, Json.float?, Json.isSound, hinfinite]

/-- Not all entries are read that are written beside any further members, and not all elements are
refused whose kind is told by something else than its name. -/
theorem not_parse?_written :
    (¬∀ (source : String) (elements : List Json) (trace : Trace),
      (Json.array elements).WrittenBy source →
      List.Forall₂ (Entry.WrittenWith fun v => v.depth ≤ Entry.depthLimit) trace elements →
        parse? source = some trace) ∧
    ¬∀ (source : String) (elements : List Json), (Json.array elements).WrittenBy source →
      (∃ v ∈ elements, Entry.FaultyWith (fun kind v => v = .text (some kind)) v) →
        parse? source = none := by
  constructor
  · intro h
    have htime : (⟨false, 0, -1, false⟩ : Numeral).toFloat? = some 0.0 :=
      Numeral.toFloat?_zero (-1) false
    have hfurther : ∀ m ∈ [("x", Json.number ⟨false, 1, 999, false⟩)],
        m.1 ∉ Event.resched.ownNames ∧ m.2.depth ≤ Entry.depthLimit := by
      simp [Event.ownNames, Event.fields, Json.depth]
    have hread := h _ _ [⟨0.0, .resched⟩] writtenBy_render_overflowingElement
      (.cons (.object htime .nil hfurther (.refl _)) .nil)
    rw [parse?_overflowingElement] at hread
    cases hread
  · intro h
    have hfaulty : Entry.FaultyWith (fun kind v => v = .text (some kind)) placedElement :=
      .unknownType rfl nofun
    have hrefused := h _ _ writtenBy_render_placedElement ⟨_, List.mem_cons_self, hfaulty⟩
    rw [parse?_placedElement] at hrefused
    cases hrefused

end Trace

end SchedAudit
