import Declutter.Proofs.Json.Decoding

/-!
# Records and the entries that fill them

The entries of an object are shared out among the fields of a record. `Fills` says what a record
makes of entries, as `Decodes` says what a decoder makes of a value: there is a rule for a field
that is given, one for a field that is left out, and one for two records whose entries stand one
behind the other.
-/

namespace Declutter.Json

/-! ## Entries -/

namespace Value

theorem heightOfEntries_append (entries others : List (String × Value)) :
    heightOfEntries (entries ++ others) =
      max (heightOfEntries entries) (heightOfEntries others) := by
  induction entries with
  | nil => simp [heightOfEntries]
  | cons entry entries ih =>
    obtain ⟨key, value⟩ := entry
    rw [List.cons_append, heightOfEntries, heightOfEntries, ih, Nat.max_assoc]

theorem numberlessEntries_append {entries others : List (String × Value)} :
    NumberlessEntries (entries ++ others) ↔
      NumberlessEntries entries ∧ NumberlessEntries others := by
  induction entries with
  | nil => simp [NumberlessEntries]
  | cons entry entries ih =>
    obtain ⟨key, value⟩ := entry
    rw [List.cons_append, NumberlessEntries, NumberlessEntries, ih, and_assoc]

theorem moreEntries_append (entries others : List (String × Value)) :
    moreEntries (entries ++ others) = moreEntries entries ++ moreEntries others := by
  induction entries with
  | nil => rw [List.nil_append, moreEntries, List.nil_append]
  | cons entry entries ih =>
    obtain ⟨key, value⟩ := entry
    rw [List.cons_append, moreEntries, moreEntries, ih]
    simp

/-- Behind the first entries of an object stand the others. -/
theorem entryDocuments_append (entries others : List (String × Value)) (rest : List Char) :
    entryDocuments (entries ++ others) rest =
      entryDocuments entries (moreEntries others ++ rest) ++ entryDocuments others rest := by
  induction entries with
  | nil => rw [List.nil_append, entryDocuments, List.nil_append]
  | cons entry entries ih =>
    obtain ⟨key, value⟩ := entry
    rw [List.cons_append, entryDocuments, entryDocuments, ih, moreEntries_append, List.append_assoc,
      List.cons_append]

end Value

open Value (Numberless NumberlessEntries entryDocuments heightOfEntries moreEntries)

/-! ## Fields -/

/-- A field of the first of two records. -/
def Field.left {σ : Type} (τ : Type) (field : Field σ) : Field (σ × τ) :=
  ⟨field.name, fun slots => field.isFilled slots.1,
    field.read.map fun fill slots => (fill slots.1, slots.2)⟩

/-- A field of the second of two records. -/
def Field.right {τ : Type} (σ : Type) (field : Field τ) : Field (σ × τ) :=
  ⟨field.name, fun slots => field.isFilled slots.2,
    field.read.map fun fill slots => (slots.1, fill slots.2)⟩

/-- `lifted` does to larger slots what `field` does to the slots within them. -/
structure Field.Lifts {σ τ : Type} (field : Field σ) (lifted : Field τ) (embed : σ → τ) : Prop where
  isFilled : ∀ slots, lifted.isFilled (embed slots) = field.isFilled slots
  read : ∀ reading document slots, (lifted.read reading document).map (· (embed slots)) =
    (field.read reading document).map fun fill => embed (fill slots)

theorem Field.lifts_left {σ τ : Type} (field : Field σ) (second : τ) :
    field.Lifts (field.left τ) (·, second) where
  isFilled _ := rfl
  read reading document slots := by
    show ((field.read reading document).map _).map _ = _
    cases field.read reading document <;> rfl

theorem Field.lifts_right {σ τ : Type} (field : Field τ) (first : σ) :
    field.Lifts (field.right σ) (first, ·) where
  isFilled _ := rfl
  read reading document slots := by
    show ((field.read reading document).map _).map _ = _
    cases field.read reading document <;> rfl

namespace Record

variable {α β : Type}

def names (record : Record α) : List String := record.fields.map (·.name)

@[simp] theorem names_ofField (name : String) (decoder : Decoder α) (absent : Except String α) :
    (ofField name decoder absent).names = [name] := rfl

@[simp] theorem names_required (name : String) (decoder : Decoder α) :
    (required name decoder).names = [name] := rfl

@[simp] theorem names_optional (name : String) (decoder : Decoder α) (absent : α) :
    (optional name decoder absent).names = [name] := rfl

@[simp] theorem names_and (a : Record α) (b : Record β) :
    (a.and b).names = a.names ++ b.names := by
  simp only [names, Record.and, List.map_append, List.map_map]
  rfl

theorem find?_fields_eq_none {record : Record α} {name : String} (h : name ∉ record.names) :
    record.fields.find? (·.name = name) = none := by
  rw [List.find?_eq_none]
  intro field hmem heq
  exact h (List.mem_map.mpr ⟨field, hmem, by simpa using heq⟩)

theorem exists_find?_fields {record : Record α} {name : String} (h : name ∈ record.names) :
    ∃ field, record.fields.find? (·.name = name) = some field := by
  obtain ⟨field, hmem, hname⟩ := List.mem_map.mp h
  exact Option.isSome_iff_exists.mp
    (List.find?_isSome.mpr ⟨field, hmem, by simpa using hname⟩)

/-- In two records a field is looked for in the first one first. -/
theorem find?_fields_and (a : Record α) (b : Record β) (name : String) :
    (a.and b).fields.find? (·.name = name) =
      ((a.fields.find? (·.name = name)).map (Field.left b.slots)).or
        ((b.fields.find? (·.name = name)).map (Field.right a.slots)) := by
  show ((a.fields.map (Field.left b.slots) ++ b.fields.map (Field.right a.slots)).find?
    fun field => field.name = name) = _
  rw [List.find?_append, List.find?_map, List.find?_map]
  rfl

/-- An entry of a known name fills a slot, unless that has been filled before. -/
theorem fillNamed_cons {record : Record α} {name : String} {field : Field record.slots}
    (h : record.fields.find? (·.name = name) = some field) (reading : Reading)
    (filled : record.slots) (behindKey : List Char) (value : Document) (entries : List Entry) :
    record.fillNamed reading filled (⟨.ok name, behindKey, value⟩ :: entries) =
      if field.isFilled filled then
        .error (.unsettled ("duplicate field `" ++ name ++ "`") behindKey)
      else (field.read reading value).bind fun fill =>
        record.fillNamed reading (fill filled) entries := by
  rw [fillNamed]
  simp only [bind, Except.bind, h]

theorem fillNamed_append (record : Record α) (reading : Reading) (filled : record.slots)
    (entries others : List Entry) :
    record.fillNamed reading filled (entries ++ others) =
      (record.fillNamed reading filled entries).bind fun filled =>
        record.fillNamed reading filled others := by
  induction entries generalizing filled with
  | nil => rfl
  | cons entry entries ih =>
    obtain ⟨key, behindKey, value⟩ := entry
    rw [List.cons_append, fillNamed, fillNamed]
    cases key with
    | error => rfl
    | ok name =>
      simp only [bind, Except.bind]
      split
      · split
        · rfl
        · cases Field.read _ reading value with
          | error => rfl
          | ok fill => exact ih (fill filled)
      · split
        · rfl
        · exact ih filled

/-- What full slots give does not matter to filling them. -/
theorem fillNamed_map (f : α → β) (record : Record α) (reading : Reading) (filled : record.slots)
    (entries : List Entry) :
    (record.map f).fillNamed reading filled entries = record.fillNamed reading filled entries := by
  obtain ⟨slots, empty, fields, build⟩ := record
  unfold map
  induction entries generalizing filled with
  | nil => rfl
  | cons entry entries ih =>
    obtain ⟨key, behindKey, value⟩ := entry
    rw [fillNamed, fillNamed]
    simp only [ih]
    cases key with
    | error => rfl
    | ok name =>
      simp only [bind, Except.bind]
      cases fields.find? (·.name = name) with
      | some field => rfl
      | none => cases value.skipFault? <;> rfl

/-- Entries fill the slots within larger ones, if each of their fields has its like there. -/
theorem fillNamed_lift {small : Record α} {large : Record β} (embed : small.slots → large.slots)
    {entries : List (String × Value)}
    (h : ∀ entry ∈ entries, ∃ field lifted, small.fields.find? (·.name = entry.1) = some field ∧
      large.fields.find? (·.name = entry.1) = some lifted ∧ field.Lifts lifted embed)
    (reading : Reading) (slots : small.slots) (rest : List Char) :
    large.fillNamed reading (embed slots) (entryDocuments entries rest) =
      (small.fillNamed reading slots (entryDocuments entries rest)).map embed := by
  induction entries generalizing slots with
  | nil => rfl
  | cons entry entries ih =>
    obtain ⟨name, value⟩ := entry
    rw [List.forall_mem_cons] at h
    obtain ⟨⟨field, lifted, hfield, hlifted, hlifts⟩, hentries⟩ := h
    -- both read the same value, and what is read fills the slots as well here as there
    have hread := hlifts.read reading (value.document (moreEntries entries ++ rest)) slots
    rw [entryDocuments, fillNamed_cons hlifted, fillNamed_cons hfield, hlifts.isFilled]
    split
    · rfl
    · have hfill := bind_map
        (lifted.read reading (value.document (moreEntries entries ++ rest))) (· (embed slots))
        (large.fillNamed reading · (entryDocuments entries rest))
      rw [← hfill, hread]
      cases field.read reading (value.document (moreEntries entries ++ rest)) with
      | error => rfl
      | ok fill => exact ih hentries (fill slots)

section And

variable {a : Record α} {b : Record β}

/-- The slots of two records. -/
def pair (left : a.slots) (right : b.slots) : (a.and b).slots := (left, right)

/-- Entries of the first of two records fill its slots. -/
theorem fillNamed_and_left {entries : List (String × Value)}
    (h : ∀ entry ∈ entries, entry.1 ∈ a.names) (reading : Reading) (left : a.slots)
    (right : b.slots) (rest : List Char) :
    (a.and b).fillNamed reading (pair left right) (entryDocuments entries rest) =
      (a.fillNamed reading left (entryDocuments entries rest)).map (pair · right) := by
  refine fillNamed_lift (pair · right) (fun entry hmem => ?_) reading left rest
  obtain ⟨field, hfield⟩ := exists_find?_fields (h entry hmem)
  refine ⟨field, field.left b.slots, hfield, ?_, field.lifts_left right⟩
  rw [find?_fields_and, hfield]
  rfl

/-- Entries of the second of two records fill its slots, if the first has no field of their
names. -/
theorem fillNamed_and_right {entries : List (String × Value)}
    (h : ∀ entry ∈ entries, entry.1 ∈ b.names ∧ entry.1 ∉ a.names) (reading : Reading)
    (left : a.slots) (right : b.slots) (rest : List Char) :
    (a.and b).fillNamed reading (pair left right) (entryDocuments entries rest) =
      (b.fillNamed reading right (entryDocuments entries rest)).map (pair left) := by
  refine fillNamed_lift (pair left) (fun entry hmem => ?_) reading right rest
  obtain ⟨field, hfield⟩ := exists_find?_fields (h entry hmem).1
  refine ⟨field, field.right a.slots, hfield, ?_, field.lifts_right left⟩
  rw [find?_fields_and, find?_fields_eq_none (h entry hmem).2, hfield]
  rfl

/-- Entries of two records fill the slots of each on their own. -/
theorem fillNamed_and_eq_ok_iff {first second : List (String × Value)}
    (hfirst : ∀ entry ∈ first, entry.1 ∈ a.names)
    (hsecond : ∀ entry ∈ second, entry.1 ∈ b.names ∧ entry.1 ∉ a.names) (reading : Reading)
    (rest : List Char) (filled : (a.and b).slots) :
    (a.and b).fillNamed reading (a.and b).empty (entryDocuments (first ++ second) rest) =
        .ok filled ↔
      ∃ left right,
        a.fillNamed reading a.empty (entryDocuments first (moreEntries second ++ rest)) =
          .ok left ∧
        b.fillNamed reading b.empty (entryDocuments second rest) = .ok right ∧
        pair left right = filled := by
  rw [Value.entryDocuments_append, fillNamed_append, bind_eq_ok_iff,
    show (a.and b).empty = pair a.empty b.empty from rfl, fillNamed_and_left hfirst]
  simp only [map_eq_ok_iff]
  constructor
  · rintro ⟨_, ⟨left, hleft, rfl⟩, hright⟩
    rw [fillNamed_and_right hsecond, map_eq_ok_iff] at hright
    obtain ⟨right, hright, rfl⟩ := hright
    exact ⟨left, right, hleft, hright, rfl⟩
  · rintro ⟨left, right, hleft, hright, rfl⟩
    refine ⟨_, ⟨left, hleft, rfl⟩, ?_⟩
    rw [fillNamed_and_right hsecond, hright]
    rfl

theorem build_and_eq_ok_iff (left : a.slots) (right : b.slots) (z : α × β) :
    (a.and b).build (pair left right) = .ok z ↔
      a.build left = .ok z.1 ∧ b.build right = .ok z.2 := by
  show (a.build left).bind (fun p => (b.build right).bind fun q => .ok (p, q)) = .ok z ↔ _
  simp only [bind_eq_ok_iff, Except.ok.injEq]
  constructor
  · rintro ⟨p, hp, q, hq, rfl⟩
    exact ⟨hp, hq⟩
  · rintro ⟨hp, hq⟩
    exact ⟨z.1, hp, z.2, hq, rfl⟩

end And

end Record

open Record (ofField)

/-- What a record makes of the entries of an object: its fields are filled from them and give `x`,
where there are as many levels left as the entries have. -/
structure Fills {α : Type} (bound : Nat) (record : Record α) (entries : List (String × Value))
    (x : α) : Prop where
  numberless : NumberlessEntries entries
  named : ∀ entry ∈ entries, entry.1 ∈ record.names
  eq_ok_iff : ∀ levels ≤ bound, ∀ rest y,
    (∃ filled, record.fillNamed ⟨.text, levels + 1⟩ record.empty (entryDocuments entries rest) =
        .ok filled ∧ record.build filled = .ok y) ↔
      heightOfEntries entries ≤ levels ∧ y = x

section

variable {α β : Type} {bound : Nat} {decoder : Decoder α} {value : Value} {x : α}

/-- A field that is given. -/
theorem fills_given (h : Decodes bound decoder value x) (name : String)
    (absent : Except String α) : Fills bound (ofField name decoder absent) [(name, value)] x where
  numberless := ⟨h.numberless, trivial⟩
  named := by simp
  eq_ok_iff levels hlevels rest y := by
    have hfield : (ofField name decoder absent).fields.find? (·.name = name) =
        some ⟨name, Option.isSome, decoder.map fun value _ => some value⟩ := by
      simp [ofField]
    rw [entryDocuments, entryDocuments, Record.fillNamed_cons hfield, heightOfEntries,
      heightOfEntries, Nat.max_zero, moreEntries, List.nil_append]
    -- the only slot is empty before, so the entry is no duplicate
    show (∃ filled, ((decoder _ _).map fun value _ => some value).bind
      (fun fill => .ok (fill none)) = .ok filled ∧ _) ↔ _
    simp only [bind_eq_ok_iff, map_eq_ok_iff, h.eq_ok_iff levels hlevels, Except.ok.injEq]
    constructor
    · rintro ⟨_, ⟨_, ⟨_, ⟨hheight, rfl⟩, rfl⟩, rfl⟩, hbuild⟩
      exact ⟨hheight, (Except.ok.inj hbuild).symm⟩
    · rintro ⟨hheight, rfl⟩
      exact ⟨some y, ⟨_, ⟨y, ⟨hheight, rfl⟩, rfl⟩, rfl⟩, rfl⟩

theorem fills_required (h : Decodes bound decoder value x) (name : String) :
    Fills bound (Record.required name decoder) [(name, value)] x :=
  fills_given h name (.error name)

/-- A field that is left out and has a value of its own. -/
theorem fills_absent (bound : Nat) (name : String) (decoder : Decoder α) (absent : α) :
    Fills bound (Record.optional name decoder absent) [] absent where
  numberless := trivial
  named := by simp
  eq_ok_iff levels _ rest y := by
    rw [heightOfEntries, and_iff_right (Nat.zero_le _)]
    constructor
    · rintro ⟨_, hfilled, hbuild⟩
      rw [← Except.ok.inj hfilled] at hbuild
      exact (Except.ok.inj hbuild).symm
    · rintro rfl
      exact ⟨none, rfl, rfl⟩

theorem Fills.map {record : Record α} {entries : List (String × Value)}
    (h : Fills bound record entries x) (f : α → β) : Fills bound (record.map f) entries (f x) where
  numberless := h.numberless
  named := h.named
  eq_ok_iff levels hlevels rest y := by
    have hx := h.eq_ok_iff levels hlevels rest
    constructor
    · rintro ⟨filled, hfilled, hbuild⟩
      have hfilled := (Record.fillNamed_map f record _ _ _).symm.trans hfilled
      obtain ⟨z, hz, rfl⟩ := map_eq_ok_iff.mp hbuild
      obtain ⟨hheight, rfl⟩ := (hx z).mp ⟨filled, hfilled, hz⟩
      exact ⟨hheight, rfl⟩
    · rintro ⟨hheight, rfl⟩
      obtain ⟨filled, hfilled, hbuild⟩ := (hx x).mpr ⟨hheight, rfl⟩
      exact ⟨filled, (Record.fillNamed_map f record _ _ _).trans hfilled,
        map_eq_ok_iff.mpr ⟨x, hbuild, rfl⟩⟩

/-- The entries of an object are shared out among two records without a name in common. -/
theorem Fills.and {a : Record α} {b : Record β} {first second : List (String × Value)} {y : β}
    (ha : Fills bound a first x) (hb : Fills bound b second y)
    (hnames : ∀ name ∈ b.names, name ∉ a.names) :
    Fills bound (a.and b) (first ++ second) (x, y) where
  numberless := Value.numberlessEntries_append.mpr ⟨ha.numberless, hb.numberless⟩
  named := by
    intro entry hmem
    rw [Record.names_and, List.mem_append]
    rcases List.mem_append.mp hmem with hmem | hmem
    · exact .inl (ha.named entry hmem)
    · exact .inr (hb.named entry hmem)
  eq_ok_iff levels hlevels rest z := by
    -- the entries of the second record are what stands behind those of the first
    have hfirst := ha.eq_ok_iff levels hlevels (moreEntries second ++ rest)
    have hsecond := hb.eq_ok_iff levels hlevels rest
    have hothers : ∀ entry ∈ second, entry.1 ∈ b.names ∧ entry.1 ∉ a.names := fun entry hmem =>
      ⟨hb.named entry hmem, hnames _ (hb.named entry hmem)⟩
    simp only [Record.fillNamed_and_eq_ok_iff ha.named hothers]
    rw [Value.heightOfEntries_append, Nat.max_le, Prod.ext_iff]
    constructor
    · rintro ⟨_, ⟨left, right, hleft, hright, rfl⟩, hz⟩
      obtain ⟨hzleft, hzright⟩ := (Record.build_and_eq_ok_iff left right z).mp hz
      obtain ⟨hheight, hx⟩ := (hfirst z.1).mp ⟨left, hleft, hzleft⟩
      obtain ⟨hheights, hy⟩ := (hsecond z.2).mp ⟨right, hright, hzright⟩
      exact ⟨⟨hheight, hheights⟩, hx, hy⟩
    · rintro ⟨⟨hheight, hheights⟩, hx, hy⟩
      obtain ⟨left, hleft, hzleft⟩ := (hfirst z.1).mpr ⟨hheight, hx⟩
      obtain ⟨right, hright, hzright⟩ := (hsecond z.2).mpr ⟨hheights, hy⟩
      exact ⟨_, ⟨left, right, hleft, hright, rfl⟩,
        (Record.build_and_eq_ok_iff left right z).mpr ⟨hzleft, hzright⟩⟩

/-- An object whose entries fill the fields of a record. -/
theorem Fills.decodes {record : Record α} {entries : List (String × Value)}
    (h : Fills bound record entries x) (expected : String) :
    Decodes (bound + 1) (record.decoder expected) (.object entries) x where
  numberless := h.numberless
  eq_ok_iff levels hlevels rest y := by
    rw [Value.document, Record.decoder, Value.height]
    simp only [bind, bind_eq_ok_iff, mapError_eq_ok_iff, Decoder.noCut]
    refine entered_iff hlevels fun fewer hfewer => ?_
    rw [← h.eq_ok_iff fewer hfewer ('\x7d' :: rest) y]
    constructor
    · rintro ⟨filled, hfilled, _, _, hbuild⟩
      exact ⟨filled, hfilled, hbuild⟩
    · rintro ⟨filled, hfilled, hbuild⟩
      exact ⟨filled, hfilled, (), trivial, hbuild⟩

/-- A list that is left out if it is empty, which it is taken for where it is left out. -/
theorem fills_unlessEmpty {f : α → Value} {xs : List α}
    (h : ∀ x ∈ xs, Decodes bound decoder (f x) x) (name : String) :
    Fills bound (Record.optional name decoder.list []) (Value.unlessEmpty name (xs.map f)) xs := by
  unfold Value.unlessEmpty
  cases xs with
  | nil => exact fills_absent bound name decoder.list []
  | cons x xs => exact fills_given ((decodes_list h).mono (Nat.le_succ bound)) name (.ok [])

/-- A boolean that is left out if it is `false`, which it is taken for where it is left out. -/
theorem fills_ifTrue (bound : Nat) (name : String) (flag : Bool) :
    Fills bound (Record.optional name Decoder.bool false) (Value.ifTrue name flag) flag := by
  cases flag with
  | false => exact fills_absent bound name Decoder.bool false
  | true => exact fills_given (decodes_bool bound true) name (.ok false)

/-- A variant whose fields are filled. -/
theorem Fills.withFields {record : Record α} {entries : List (String × Value)}
    (h : Fills bound record entries x) (name typeName : String) :
    Decodes (bound + 1) (Variant.withFields name typeName record).payload (.object entries) x :=
  ⟨h.numberless, (h.decodes ("struct variant " ++ typeName)).eq_ok_iff⟩

end

end Declutter.Json
