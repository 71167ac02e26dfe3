import Declutter.Json.Decoder
import Declutter.Proofs.Json.Texts
import Declutter.Tree.Encoding

/-!
# Decoders and the values they decode

A decoder decodes a value as `x` if it finds `x` in the document of the value where a text has room
for all nested lists and objects, and finds nothing where it has not: `Decodes`. There is one rule
for each way to put decoders together, so that for a decoder of many parts it is enough to look at
the parts.

Decoders of nested types reach only down to some level of nesting, and `bound` says which.
-/

namespace Declutter.Json

/-! ## Success -/

section Except

variable {ε ε' α β : Type}

theorem bind_eq_ok_iff {m : Except ε α} {f : α → Except ε β} {y : β} :
    m.bind f = .ok y ↔ ∃ x, m = .ok x ∧ f x = .ok y := by
  cases m with
  | error => simp [Except.bind]
  | ok x => simp [Except.bind]

theorem map_eq_ok_iff {m : Except ε α} {f : α → β} {y : β} :
    m.map f = .ok y ↔ ∃ x, m = .ok x ∧ f x = y := by
  cases m with
  | error => simp [Except.map]
  | ok x => simp [Except.map]

theorem bind_map {γ : Type} (m : Except ε α) (f : α → β) (g : β → Except ε γ) :
    (m.map f).bind g = m.bind fun x => g (f x) := by
  cases m <;> rfl

theorem mapError_eq_ok_iff {m : Except ε α} {f : ε → ε'} {x : α} :
    m.mapError f = .ok x ↔ m = .ok x := by
  cases m with
  | error =>
    constructor
    · intro h
      cases h
    · intro h
      cases h
  | ok y =>
    show (.ok y : Except ε' α) = .ok x ↔ _
    rw [Except.ok.injEq, Except.ok.injEq]

end Except

/-! ## Nesting -/

namespace Value

mutual

/-- How deeply lists and objects are nested in a value. -/
def height : Value → Nat
  | .array items => heightOfItems items + 1
  | .object entries => heightOfEntries entries + 1
  | _ => 0

def heightOfItems : List Value → Nat
  | [] => 0
  | item :: items => max item.height (heightOfItems items)

def heightOfEntries : List (String × Value) → Nat
  | [] => 0
  | (_, value) :: entries => max value.height (heightOfEntries entries)

end

end Value

open Value (Numberless NumberlessItems documents entryDocuments heightOfItems heightOfEntries
  moreEntries)

/-! ## Decoding -/

/-- What a decoder makes of the document of a value: `x` where there are as many levels left as the
value has, and nothing where there are fewer. -/
structure Decodes {α : Type} (bound : Nat) (decoder : Decoder α) (value : Value) (x : α) :
    Prop where
  numberless : value.Numberless
  eq_ok_iff : ∀ levels ≤ bound, ∀ rest y,
    decoder ⟨.text, levels + 1⟩ (value.document rest) = .ok y ↔ value.height ≤ levels ∧ y = x

section

variable {α β : Type} {bound : Nat} {decoder : Decoder α} {value : Value} {x : α}

theorem Decodes.mono {smaller : Nat} (h : Decodes bound decoder value x) (hle : smaller ≤ bound) :
    Decodes smaller decoder value x where
  numberless := h.numberless
  eq_ok_iff levels hlevels := h.eq_ok_iff levels (Nat.le_trans hlevels hle)

/-- Without nesting there is always room. -/
theorem decodes_flat (hnumberless : value.Numberless) (hheight : value.height = 0)
    (h : ∀ reading rest, decoder reading (value.document rest) = .ok x) :
    Decodes bound decoder value x where
  numberless := hnumberless
  eq_ok_iff levels _ rest y := by
    rw [h, hheight, and_iff_right (Nat.zero_le _), Except.ok.injEq, eq_comm]

theorem decodes_string (bound : Nat) (value : String) :
    Decodes bound Decoder.string (.string value) value :=
  decodes_flat trivial rfl fun _ _ => rfl

theorem decodes_bool (bound : Nat) (value : Bool) :
    Decodes bound Decoder.bool (.bool value) value :=
  decodes_flat trivial rfl fun _ _ => rfl

theorem Decodes.map (h : Decodes bound decoder value x) (f : α → β) :
    Decodes bound (decoder.map f) value (f x) where
  numberless := h.numberless
  eq_ok_iff levels hlevels rest y := by
    rw [Decoder.map, map_eq_ok_iff]
    simp only [h.eq_ok_iff levels hlevels]
    constructor
    · rintro ⟨_, ⟨hheight, rfl⟩, rfl⟩
      exact ⟨hheight, rfl⟩
    · rintro ⟨hheight, rfl⟩
      exact ⟨x, ⟨hheight, rfl⟩, rfl⟩

theorem decodes_nullable_null (bound : Nat) (decoder : Decoder α) :
    Decodes bound decoder.nullable .null none :=
  decodes_flat trivial rfl fun _ _ => rfl

theorem Decodes.nullable (h : Decodes bound decoder value x) (hvalue : value ≠ .null) :
    Decodes bound decoder.nullable value (some x) where
  numberless := h.numberless
  eq_ok_iff levels hlevels rest y := by
    -- only the document of `null` is taken for a missing value
    have hsome : decoder.nullable ⟨.text, levels + 1⟩ (value.document rest) =
        (decoder ⟨.text, levels + 1⟩ (value.document rest)).map some := by
      have hnumberless := h.numberless
      cases value with
      | null => exact absurd rfl hvalue
      | number => cases hnumberless
      | _ => rfl
    rw [hsome]
    exact (h.map some).eq_ok_iff levels hlevels rest y

/-- Inside a list or an object there is one level less. -/
theorem entered_iff {P : Reading → Prop} {Q : Prop} {height levels : Nat} {extent : Extent}
    (hlevels : levels ≤ bound + 1)
    (h : ∀ fewer ≤ bound, P ⟨.text, fewer + 1⟩ ↔ height ≤ fewer ∧ Q) :
    (∃ inner, Decoder.enter ⟨.text, levels + 1⟩ extent = .ok inner ∧ P inner) ↔
      height + 1 ≤ levels ∧ Q := by
  cases levels with
  | zero => simp [Decoder.enter]
  | succ fewer =>
    have henter : Decoder.enter ⟨.text, fewer + 1 + 1⟩ extent = .ok ⟨.text, fewer + 1⟩ := by
      simp [Decoder.enter]
    rw [Nat.succ_le_succ_iff, ← h fewer (Nat.le_of_succ_le_succ hlevels)]
    simp only [henter, Except.ok.injEq, exists_eq_left']

/-! ### Lists -/

theorem listItems_eq_ok_iff {f : α → Value} {xs : List α}
    (h : ∀ x ∈ xs, Decodes bound decoder (f x) x) {levels : Nat} (hlevels : levels ≤ bound)
    (rest : List Char) (ys : List α) :
    Decoder.listItems decoder ⟨.text, levels + 1⟩ (documents (xs.map f) rest) = .ok ys ↔
      heightOfItems (xs.map f) ≤ levels ∧ ys = xs := by
  induction xs generalizing ys with
  | nil =>
    rw [List.map_nil, documents, Decoder.listItems, heightOfItems,
      and_iff_right (Nat.zero_le _), Except.ok.injEq, eq_comm]
  | cons x xs ih =>
    have hx := h x List.mem_cons_self
    have hxs := ih fun other hmem => h other (List.mem_cons_of_mem x hmem)
    rw [List.map_cons, documents, Decoder.listItems, heightOfItems, Nat.max_le]
    simp only [bind, bind_eq_ok_iff, hx.eq_ok_iff levels hlevels, hxs, pure, Except.pure,
      Except.ok.injEq]
    constructor
    · rintro ⟨_, ⟨hheight, rfl⟩, _, ⟨hheights, rfl⟩, rfl⟩
      exact ⟨⟨hheight, hheights⟩, rfl⟩
    · rintro ⟨⟨hheight, hheights⟩, rfl⟩
      exact ⟨x, ⟨hheight, rfl⟩, xs, ⟨hheights, rfl⟩, rfl⟩

theorem numberlessItems_iff {items : List Value} :
    NumberlessItems items ↔ ∀ item ∈ items, item.Numberless := by
  induction items with
  | nil => simp [NumberlessItems]
  | cons item items ih => rw [NumberlessItems, ih, List.forall_mem_cons]

/-- A list of values that are decoded one by one. -/
theorem decodes_list {f : α → Value} {xs : List α}
    (h : ∀ x ∈ xs, Decodes bound decoder (f x) x) :
    Decodes (bound + 1) decoder.list (.array (xs.map f)) xs where
  numberless := by
    rw [Numberless, numberlessItems_iff, List.forall_mem_map]
    exact fun x hmem => (h x hmem).numberless
  eq_ok_iff levels hlevels rest ys := by
    rw [Value.document, Decoder.list, Value.height]
    simp only [bind, bind_eq_ok_iff, mapError_eq_ok_iff, Decoder.noCut, pure, Except.pure,
      Except.ok.injEq]
    refine entered_iff hlevels fun fewer hfewer => ?_
    simp only [listItems_eq_ok_iff h hfewer]
    constructor
    · rintro ⟨_, ⟨hheight, rfl⟩, _, _, rfl⟩
      exact ⟨hheight, rfl⟩
    · rintro ⟨hheight, rfl⟩
      exact ⟨ys, ⟨hheight, rfl⟩, (), trivial, rfl⟩

/-! ## Variants -/

/-- A variant that is its name. -/
theorem decodes_alone {variants : List (Variant α)} {variant : Variant α} {name : String}
    (hfind : variants.find? (·.name = name) = some variant) (halone : variant.alone = some x) :
    Decodes bound (Variant.decoder variants) (.string name) x := by
  refine decodes_flat trivial rfl fun _ rest => ?_
  show Variant.decodeAlone variants name rest = .ok x
  have hfound : Variant.find variants name rest = .ok variant := by
    rw [Variant.find, hfind]
  rw [Variant.decodeAlone, hfound]
  simp only [bind, Except.bind, halone, pure, Except.pure]

/-- A variant that comes with a value. -/
theorem Decodes.tagged {variants : List (Variant α)} {variant : Variant α} {name : String}
    (h : Decodes bound variant.payload value x)
    (hfind : variants.find? (·.name = name) = some variant) :
    Decodes (bound + 1) (Variant.decoder variants) (.tagged name value) x where
  numberless := ⟨h.numberless, trivial⟩
  eq_ok_iff levels hlevels rest y := by
    have hfound (behind : List Char) : Variant.find variants name behind = .ok variant := by
      rw [Variant.find, hfind]
    have hend : Variant.expectSingle (value.document ('\x7d' :: rest)).extent.behind = .ok () := by
      rw [Value.extent_behind_document h.numberless]
      rfl
    rw [Value.tagged, Value.document, Value.height, entryDocuments, heightOfEntries,
      heightOfEntries, Nat.max_zero]
    simp only [moreEntries, List.nil_append, Variant.decoder, bind, bind_eq_ok_iff, pure,
      Except.pure, Except.ok.injEq]
    -- of the levels inside, all are left for what comes with the name
    refine entered_iff hlevels fun fewer hfewer => ?_
    have hvalue := h.eq_ok_iff fewer hfewer ('\x7d' :: rest)
    constructor
    · rintro ⟨_, rfl, found, hvariant, _, hpayload, _, _, rfl⟩
      obtain rfl : variant = found := Except.ok.inj ((hfound _).symm.trans hvariant)
      exact (hvalue _).mp hpayload
    · intro hfits
      exact ⟨name, rfl, variant, hfound _, y, (hvalue y).mpr hfits, (), hend, rfl⟩

/-! ## Whole texts -/

/-- A text has room for `127` nested lists and objects. -/
theorem decodeText_compact (h : Decodes bound decoder value x) (hbound : 127 ≤ bound) (y : α) :
    decodeText decoder value.compact = .ok y ↔ value.height ≤ 127 ∧ y = x := by
  -- a reading counts one level more than may be used, and nothing stands behind the value
  rw [decodeText, mapError_eq_ok_iff, Document.parse_compact h.numberless,
    Value.extent_behind_document h.numberless]
  simp only [bind, bind_eq_ok_iff, h.eq_ok_iff 127 hbound]
  constructor
  · rintro ⟨_, ⟨hheight, rfl⟩, hend⟩
    exact ⟨hheight, (Except.ok.inj hend).symm⟩
  · rintro ⟨hheight, rfl⟩
    exact ⟨y, ⟨hheight, rfl⟩, rfl⟩

end

end Declutter.Json
