import Mathlib.Data.List.Forall2
import SwiftScribe.Json.Path
import SwiftScribe.Proofs.Regular
import SwiftScribe.Proofs.Rounding

/-!
# Payloads are read without loss

A payload could have eight shapes. A value is read as the first of them that it fits, and the shapes
overlap: an integer could be a double as well, an array of small integers could be bytes, and a key could
be an index. `Payload.read?` tries one shape after the other at every depth. It never fails, and what it
finds is `Scalar.ofJson`, which has no bytes and no indices in it.

* `Payload.Arm.read?`: what a value is as a payload of one shape, its parts being read by a given reader.
* `Payload.first?_regular`: **one level**, which shape is found first if the members are read rightly.
* `Payload.read?_regular`: the first shape that fits, at every depth, is that of `Scalar.ofJson`.
* `Json.WrittenBack`: a value with its large integers made doubles, and nothing else changed.
* `Scalar.ofJson_lossless`: **a value is read as a payload and written back without loss.**
-/

namespace SwiftScribe

/-- **A payload of any of the eight shapes**, also of those that no value is read as. -/
inductive Payload where
  | null
  | bool (value : Bool)
  | int (value : Int)
  | double (value : Double)
  | str (value : String)
  | arr (items : List Payload)
  | bytes (values : List UInt8)
  | map (entries : List (Json.Key × Payload))

/-- The double nearest to an integer of 64 bits. -/
def Double.ofInt (n : Int) : Double :=
  if n < 0 then withSign true (ofNat n.natAbs) else ofNat n.toNat

namespace Payload

/-! ## Reading, shape by shape -/

/-- One of the shapes. -/
inductive Arm where
  | null
  | bool
  | int
  | double
  | str
  | arr
  | bytes
  | map

/-- The shapes in the order in which they are tried. -/
def Arm.order : List Arm := [.null, .bool, .int, .double, .str, .arr, .bytes, .map]

/-- The byte that a value is, if it is one. -/
def byte? : Json → Option UInt8
  | .int n => if 0 ≤ n ∧ n ≤ 255 then some (UInt8.ofNat n.toNat) else none
  | _ => none

/-- Sets a key: in place if it is there, at the end otherwise. -/
def setKey (key : Json.Key) (value : Payload) : List (Json.Key × Payload) → List (Json.Key × Payload)
  | [] => [(key, value)]
  | (k, v) :: rest => if k = key then (key, value) :: rest else (k, v) :: setKey key value rest

/-- Reads the entries of an object into those that are there. Every key is read as well. -/
def readEntries (child : Json → Option Payload) :
    List (Json.Key × Payload) → Json.Entries → Option (List (Json.Key × Payload))
  | done, [] => some done
  | done, (name, value) :: rest => do
    let key ← Json.Key.ofJson? (.str name)
    let first ← child value
    readEntries child (setKey key first done) rest

/-- **A value as a payload of a given shape**, if it fits. Its parts are read by `child`. -/
def Arm.read? (child : Json → Option Payload) : Arm → Json → Option Payload
  | .null, .null => some .null
  | .bool, .bool value => some (.bool value)
  | .int, .int n => if -0x8000000000000000 ≤ n ∧ n < 0x8000000000000000 then some (.int n) else none
  | .double, .int n => some (.double (Double.ofInt n))
  | .double, .double value => some (.double value)
  | .str, .str value => some (.str value)
  | .arr, .arr items => (items.mapM child).map .arr
  | .bytes, .arr items => (items.mapM byte?).map .bytes
  | .map, .obj entries => (readEntries child [] entries).map .map
  | _, _ => none

/-- **The first shape that a value fits.** -/
def first? (child : Json → Option Payload) (value : Json) : Option Payload :=
  Arm.order.findSome? fun arm => arm.read? child value

/-- The first shape that a value fits, at every depth, for a value nested less deep than `depth`. -/
def readWithin : Nat → Json → Option Payload
  | 0, _ => none
  | depth + 1, value => first? (readWithin depth) value

/-- **The payload that a value is read as:** the first shape that fits, at every depth. -/
def read? (value : Json) : Option Payload := readWithin (value.depth + 1) value

/-! ## Writing -/

mutual
/-- The payload as a JSON value. -/
def toJson : Payload → Json
  | .null => .null
  | .bool value => .bool value
  | .int value => .int value
  | .double value => .double value
  | .str value => .str value
  | .arr items => .arr (toItems items)
  | .bytes values => .arr (values.map fun byte => .int byte.toNat)
  | .map entries => .obj (toEntries entries)

/-- Every item as a JSON value. -/
def toItems : List Payload → List Json
  | [] => []
  | item :: rest => toJson item :: toItems rest

/-- Every entry as an entry of a JSON object. -/
def toEntries : List (Json.Key × Payload) → Json.Entries
  | [] => []
  | (key, value) :: rest => (key.text, toJson value) :: toEntries rest
end

/-- **No bytes and no index as a key**, at any depth. -/
inductive Plain : Payload → Prop
  | null : Plain .null
  | bool (value : Bool) : Plain (.bool value)
  | int (value : Int) : Plain (.int value)
  | double (value : Double) : Plain (.double value)
  | str (value : String) : Plain (.str value)
  | arr {items : List Payload} (h : ∀ item ∈ items, Plain item) : Plain (.arr items)
  | map {entries : List (Json.Key × Payload)} (names : ∀ entry ∈ entries, ∃ name, entry.1 = .name name)
    (h : ∀ entry ∈ entries, Plain entry.2) : Plain (.map entries)

end Payload

/-! ## Payloads of values -/

namespace Scalar

mutual
/-- A payload as one of the eight shapes. -/
def payload : Scalar → Payload
  | .null => .null
  | .bool value => .bool value
  | .int value => .int value
  | .double value => .double value
  | .str value => .str value
  | .arr items => .arr (payloads items)
  | .map entries => .map (payloadEntries entries)

/-- Every item as one of the eight shapes. -/
def payloads : List Scalar → List Payload
  | [] => []
  | item :: rest => payload item :: payloads rest

/-- Every entry; its key is a name. -/
def payloadEntries : List (String × Scalar) → List (Json.Key × Payload)
  | [] => []
  | (key, value) :: rest => (.name key, payload value) :: payloadEntries rest
end

mutual
/-- A payload holds no bytes, and its keys are names. -/
theorem plain_payload : (value : Scalar) → value.payload.Plain
  | .null => .null
  | .bool value => .bool value
  | .int value => .int value
  | .double value => .double value
  | .str value => .str value
  | .arr items => .arr (plain_payloads items)
  | .map entries => by
    have hentries := plain_payloadEntries entries
    exact .map (fun entry hm => (hentries entry hm).1) fun entry hm => (hentries entry hm).2

theorem plain_payloads : (items : List Scalar) → ∀ item ∈ payloads items, item.Plain
  | [] => fun _ hm => absurd hm List.not_mem_nil
  | item :: rest => List.forall_mem_cons.2 ⟨plain_payload item, plain_payloads rest⟩

theorem plain_payloadEntries : (entries : List (String × Scalar)) →
    ∀ entry ∈ payloadEntries entries, (∃ name, entry.1 = .name name) ∧ entry.2.Plain
  | [] => fun _ hm => absurd hm List.not_mem_nil
  | (key, value) :: rest =>
    List.forall_mem_cons.2 ⟨⟨⟨key, rfl⟩, plain_payload value⟩, plain_payloadEntries rest⟩
end

mutual
/-- It is written alike as one of the eight shapes. -/
theorem toJson_payload : (value : Scalar) → value.payload.toJson = value.toJson
  | .null => rfl
  | .bool _ => rfl
  | .int _ => rfl
  | .double _ => rfl
  | .str _ => rfl
  | .arr items => by rw [payload, Payload.toJson, toItems_payloads items, toJson]
  | .map entries => by rw [payload, Payload.toJson, toEntries_payloadEntries entries, toJson]

theorem toItems_payloads :
    (items : List Scalar) → Payload.toItems (payloads items) = toItems items
  | [] => rfl
  | item :: rest => by
    rw [payloads, Payload.toItems, toJson_payload item, toItems_payloads rest, toItems]

theorem toEntries_payloadEntries :
    (entries : List (String × Scalar)) → Payload.toEntries (payloadEntries entries) = toEntries entries
  | [] => rfl
  | (key, value) :: rest => by
    rw [payloadEntries, Payload.toEntries, toJson_payload value, toEntries_payloadEntries rest,
      toEntries, Json.Key.text]
end

theorem payload_ofJson_arr (items : List Json) :
    (ofJson (.arr items)).payload = .arr (items.map fun item => (ofJson item).payload) := by
  have hitems : payloads (ofItems items) = items.map fun item => (ofJson item).payload := by
    induction items with
    | nil => rfl
    | cons item rest ih => rw [ofItems, payloads, ih, List.map_cons]
  rw [ofJson, payload, hitems]

theorem payload_ofJson_obj (entries : Json.Entries) :
    (ofJson (.obj entries)).payload =
      .map (entries.map fun entry => (.name entry.1, (ofJson entry.2).payload)) := by
  have hentries : payloadEntries (ofEntries entries) =
      entries.map fun entry => (.name entry.1, (ofJson entry.2).payload) := by
    induction entries with
    | nil => rfl
    | cons head rest ih => rw [ofEntries, payloadEntries, ih, List.map_cons]
  rw [ofJson, payload, hentries]

end Scalar

namespace Payload

/-! ## The first shape that fits -/

/-- Reading all items, if every one can be read. -/
theorem mapM_eq_some {child : Json → Option Payload} {read : Json → Payload} {items : List Json}
    (h : ∀ item ∈ items, child item = some (read item)) :
    items.mapM child = some (items.map read) := by
  induction items with
  | nil => rfl
  | cons item rest ih =>
    have hrest := ih fun other hm => h other (List.mem_cons_of_mem _ hm)
    rw [List.mapM_cons, h item List.mem_cons_self, hrest]
    rfl

theorem setKey_fresh {key : Json.Key} {done : List (Json.Key × Payload)}
    (h : key ∉ done.map Prod.fst) (value : Payload) : setKey key value done = done ++ [(key, value)] := by
  induction done with
  | nil => rfl
  | cons head rest ih =>
    rw [List.map_cons, List.mem_cons, not_or] at h
    rw [setKey, if_neg (Ne.symm h.1), ih h.2, List.cons_append]

/-- Reading all entries, if every value can be read: with distinct keys none of them replaces another. -/
theorem readEntries_eq_some {child : Json → Option Payload} (read : Json → Payload)
    {entries : Json.Entries} (hd : (entries.map Prod.fst).Nodup)
    (h : ∀ entry ∈ entries, child entry.2 = some (read entry.2)) {done : List (Json.Key × Payload)}
    (hdone : ∀ entry ∈ entries, Json.Key.name entry.1 ∉ done.map Prod.fst) :
    readEntries child done entries =
      some (done ++ entries.map fun entry => (.name entry.1, read entry.2)) := by
  induction entries generalizing done with
  | nil => rw [readEntries, List.map_nil, List.append_nil]
  | cons head rest ih =>
    obtain ⟨name, value⟩ := head
    obtain ⟨hfresh, hrest⟩ := List.nodup_cons.1 hd
    have hset := setKey_fresh (hdone _ List.mem_cons_self) (read value)
    -- the key that was set is none of those to come
    have hothers : ∀ entry ∈ rest, Json.Key.name entry.1 ∉
        (done ++ [(Json.Key.name name, read value)]).map Prod.fst := by
      intro entry hm hin
      rw [List.map_append, List.mem_append] at hin
      rcases hin with hin | hin
      · exact hdone entry (List.mem_cons_of_mem _ hm) hin
      · have hname : entry.1 = name := by simpa using hin
        exact hfresh (List.mem_map.2 ⟨entry, hm, hname⟩)
    have hread := ih hrest (fun entry hm => h entry (List.mem_cons_of_mem _ hm)) hothers
    calc
      readEntries child done ((name, value) :: rest)
          = (child value).bind fun first => readEntries child (setKey (.name name) first done) rest := rfl
      _ = readEntries child (setKey (.name name) (read value) done) rest := by
        rw [h _ List.mem_cons_self, Option.bind_some]
      _ = some (done ++ ((name, value) :: rest).map fun entry => (.name entry.1, read entry.2)) := by
        rw [hset, hread, List.append_assoc, List.singleton_append, List.map_cons]

section Shapes

variable {child : Json → Option Payload}

/-- An integer is read as one below `2 ^ 63`, and as a double from then on. -/
theorem first?_int {n : Int} (h : -0x8000000000000000 ≤ n) :
    first? child (.int n) = some (Scalar.ofInt n).payload := by
  by_cases hn : n < 0x8000000000000000
  · have hfits : -0x8000000000000000 ≤ n ∧ n < 0x8000000000000000 := ⟨h, hn⟩
    rw [Scalar.ofInt, if_pos hn]
    simp [first?, Arm.order, Arm.read?, hfits, Scalar.payload]
  · -- too large to have a sign, so the next shape that fits is a double of a natural number
    have hpos : ¬ n < 0 := by omega
    have hdouble : Double.ofInt n = Double.ofNat n.toNat := if_neg hpos
    rw [Scalar.ofInt, if_neg hn, Scalar.payload, ← hdouble]
    simp [first?, Arm.order, Arm.read?, hn]

/-- An array is read as one before it is tried as bytes. -/
theorem first?_arr {items : List Json} {payloads : List Payload}
    (h : items.mapM child = some payloads) : first? child (.arr items) = some (.arr payloads) := by
  simp [first?, Arm.order, Arm.read?, h]

theorem first?_obj {entries : Json.Entries} {payloads : List (Json.Key × Payload)}
    (h : readEntries child [] entries = some payloads) :
    first? child (.obj entries) = some (.map payloads) := by
  simp [first?, Arm.order, Arm.read?, h]

/-- **One level:** if the members are read as `Scalar.ofJson` has them, so is the whole. -/
theorem first?_regular {value : Json} (h : value.Regular)
    (hmembers : ∀ member ∈ value.members, child member = some (Scalar.ofJson member).payload) :
    first? child value = some (Scalar.ofJson value).payload := by
  cases value with
  | int n => exact first?_int h.sized.self.1
  | arr items =>
    rw [Scalar.payload_ofJson_arr]
    exact first?_arr (mapM_eq_some hmembers)
  | obj entries =>
    rw [Scalar.payload_ofJson_obj]
    have hkeys : (entries.map Prod.fst).Nodup := h.keyed.self
    have hentries : ∀ entry ∈ entries, child entry.2 = some (Scalar.ofJson entry.2).payload :=
      fun entry hm => hmembers entry.2 (List.mem_map_of_mem hm)
    have hfresh : ∀ entry ∈ entries,
        Json.Key.name entry.1 ∉ ([] : List (Json.Key × Payload)).map Prod.fst :=
      fun _ _ => List.not_mem_nil
    have hread := readEntries_eq_some (fun value => (Scalar.ofJson value).payload) hkeys hentries hfresh
    rw [List.nil_append] at hread
    exact first?_obj hread
  | _ => rfl

end Shapes

/-- **The first shape that fits, at every depth,** is that of `Scalar.ofJson`. -/
theorem readWithin_regular {depth : Nat} {value : Json} (h : value.Regular) (hd : value.depth < depth) :
    readWithin depth value = some (Scalar.ofJson value).payload := by
  induction depth generalizing value with
  | zero => exact absurd hd (Nat.not_lt_zero _)
  | succ depth ih =>
    rw [readWithin]
    refine first?_regular h fun member hm => ih (h.member hm) ?_
    have hmember := Json.depth_lt_of_member hm
    omega

theorem read?_regular {value : Json} (h : value.Regular) :
    read? value = some (Scalar.ofJson value).payload :=
  readWithin_regular h (Nat.lt_succ_self _)

/-- Members are read as the whole is, whatever their depth. -/
theorem read?_eq_first? {value : Json} (h : value.Regular) : read? value = first? read? value := by
  have hmembers : ∀ member ∈ value.members, read? member = some (Scalar.ofJson member).payload :=
    fun member hm => read?_regular (h.member hm)
  rw [read?_regular h, first?_regular h hmembers]

end Payload

/-! ## Writing back -/

/-- **A value as it is written back.** An integer from `2 ^ 63` on has become the double nearest to it,
and nothing else has changed: the same items and the same keys are in the same order. -/
inductive Json.WrittenBack : Json → Json → Prop
  | null : WrittenBack .null .null
  | bool (value : Bool) : WrittenBack (.bool value) (.bool value)
  | int {n : Int} (h : n < 2 ^ 63) : WrittenBack (.int n) (.int n)
  | rounded {n : Int} {value : Double} (h : 2 ^ 63 ≤ n) (near : value.Nearest n) :
    WrittenBack (.int n) (.double value)
  | double (value : Double) : WrittenBack (.double value) (.double value)
  | str (value : String) : WrittenBack (.str value) (.str value)
  | arr {items others : List Json} (h : List.Forall₂ WrittenBack items others) :
    WrittenBack (.arr items) (.arr others)
  | obj {entries others : Entries} (keys : entries.map Prod.fst = others.map Prod.fst)
    (h : List.Forall₂ WrittenBack (entries.map Prod.snd) (others.map Prod.snd)) :
    WrittenBack (.obj entries) (.obj others)

namespace Scalar

variable {value : Json}

theorem toJson_ofJson_arr (items : List Json) :
    (ofJson (.arr items)).toJson = .arr (items.map fun item => (ofJson item).toJson) := by
  have hitems : toItems (ofItems items) = items.map fun item => (ofJson item).toJson := by
    induction items with
    | nil => rfl
    | cons item rest ih => rw [ofItems, toItems, ih, List.map_cons]
  rw [ofJson, toJson, hitems]

theorem toJson_ofJson_obj (entries : Json.Entries) :
    (ofJson (.obj entries)).toJson = .obj (entries.map fun entry => (entry.1, (ofJson entry.2).toJson)) := by
  have hentries : toEntries (ofEntries entries) =
      entries.map fun entry => (entry.1, (ofJson entry.2).toJson) := by
    induction entries with
    | nil => rfl
    | cons head rest ih => rw [ofEntries, toEntries, ih, List.map_cons]
  rw [ofJson, toJson, hentries]

/-- **Everything but a large integer is written back as it was read.** -/
theorem writtenBack_ofJson (h : value.Every Json.Sized) :
    value.WrittenBack (ofJson value).toJson := by
  induction value using Json.induct with
  | leaf value hleaf =>
    cases value with
    | int n =>
      rw [ofJson, ofInt]
      split
      · rename_i hn
        exact .int hn
      · rename_i hn
        obtain ⟨-, hmost⟩ := h.self
        have hcast : ((n.toNat : ℕ) : ℚ) = n := by
          have hnat : (n.toNat : ℤ) = n := Int.toNat_of_nonneg (by omega)
          exact_mod_cast hnat
        have hnear := Double.nearest_ofNat (show n.toNat < 2 ^ 64 by omega)
        rw [hcast] at hnear
        exact .rounded (by omega) hnear
    | arr items => cases hleaf
    | obj entries => cases hleaf
    | _ => constructor
  | arr items ih =>
    rw [toJson_ofJson_arr]
    refine .arr (List.forall₂_map_right_iff.2 (List.forall₂_same.2 fun item hm => ?_))
    exact ih item hm ((Json.every_arr_iff.1 h).2 item hm)
  | obj entries ih =>
    rw [toJson_ofJson_obj]
    constructor
    · rw [List.map_map]
      rfl
    · rw [List.map_map, List.forall₂_map_left_iff, List.forall₂_map_right_iff, List.forall₂_same]
      exact fun entry hm => ih entry hm ((Json.every_obj_iff.1 h).2 entry hm)

end Scalar

namespace Json

/-- Lists are equal whose items are, if what is written back of an item is the item. -/
theorem eq_of_writtenBack {items others : List Json} (h : List.Forall₂ WrittenBack items others)
    (heq : ∀ item ∈ items, ∀ other, item.WrittenBack other → other = item) : others = items := by
  induction h with
  | nil => rfl
  | cons hfirst hrest ih =>
    have hitem := heq _ List.mem_cons_self _ hfirst
    have hitems := ih fun item hm => heq item (List.mem_cons_of_mem _ hm)
    rw [hitem, hitems]

/-- **What is written back is the value itself if none of its integers is large.** -/
theorem WrittenBack.eq {value other : Json} (h : value.WrittenBack other)
    (hsmall : ∀ n, Part (.int n) value → n < 2 ^ 63) : other = value := by
  induction value using induct generalizing other with
  | leaf value hleaf =>
    cases h with
    | rounded hlarge near => exact absurd (hsmall _ (.whole _)) (not_lt.2 hlarge)
    | arr _ => cases hleaf
    | obj _ _ => cases hleaf
    | _ => rfl
  | arr items ih =>
    cases h with
    | arr hitems =>
      refine congrArg Json.arr (eq_of_writtenBack hitems fun item hm other hother => ?_)
      exact ih item hm hother fun n hp => hsmall n (.item hm hp)
  | obj entries ih =>
    cases h with
    | obj keys hvalues =>
      have heq := eq_of_writtenBack hvalues fun value hm other hother => by
        obtain ⟨entry, hentry, rfl⟩ := List.mem_map.1 hm
        exact ih entry hentry hother fun n hp => hsmall n (.entry hentry hp)
      have hothers := List.zip_of_prod keys.symm heq
      rw [hothers, ← List.zip_of_prod rfl rfl]

end Json

namespace Scalar

/-- **A value is read as a payload and written back without loss.** One of the eight shapes fits at every
depth, so that reading never fails, and it is never bytes, nor a key an index. Written back, an integer
from `2 ^ 63` on is the double nearest to it and nothing else has changed; without such an integer it is
the value itself. -/
theorem ofJson_lossless {value : Json} (h : value.Regular) :
    ∃ payload, Payload.read? value = some payload ∧ payload.Plain ∧
      value.WrittenBack payload.toJson ∧
      ((∀ n, Json.Part (.int n) value → n < 2 ^ 63) → payload.toJson = value) ∧
      ∀ child path, ∃ scalar, Schema.scalar.decode child ⟨value, path⟩ = .ok scalar ∧
        scalar.payload = payload ∧ scalar.toJson = payload.toJson := by
  have hread := Payload.read?_regular h
  have hback := writtenBack_ofJson h.sized
  rw [← toJson_payload] at hback
  refine ⟨(ofJson value).payload, hread, plain_payload _, hback, hback.eq, fun child path => ?_⟩
  exact ⟨ofJson value, rfl, rfl, (toJson_payload _).symm⟩

/-- A key of digits stays a name, and a large integer is rounded up to `2 ^ 64`. -/
theorem ofJson_lossless_large :
    ∃ payload, Payload.read?
        (.obj [("3", .arr [.int 1, .int 255]), ("n", .int 18446744073709551615)]) = some payload ∧
      payload.Plain ∧ payload.toJson =
        .obj [("3", .arr [.int 1, .int 255]), ("n", .double ⟨0x43f0000000000000⟩)] := by
  have hregular : Json.Regular
      (.obj [("3", .arr [.int 1, .int 255]), ("n", .int 18446744073709551615)]) := by
    have hint (holds : Json → Prop) (n : Int) : Json.Every holds (.int n) ↔ holds (.int n) :=
      Json.every_leaf_iff rfl
    constructor
    · simp [Json.every_obj_iff, Json.every_arr_iff, hint, Json.Sized]
    · simp [Json.every_obj_iff, Json.every_arr_iff, hint, Json.Keyed]
  obtain ⟨payload, hread, hplain, -, -, hdecode⟩ := ofJson_lossless hregular
  refine ⟨payload, hread, hplain, ?_⟩
  obtain ⟨scalar, hscalar, -, hjson⟩ := hdecode (fun _ => .error (.keyNotFound "" [])) []
  cases hscalar
  have hrounded : Double.ofNat 18446744073709551615 = ⟨0x43f0000000000000⟩ := by decide +kernel
  rw [← hjson, ← hrounded]
  rfl

end Scalar

end SwiftScribe
