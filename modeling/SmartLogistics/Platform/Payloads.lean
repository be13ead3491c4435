import Mathlib.Data.List.Lex
import SmartLogistics.Library.Paging
import SmartLogistics.Platform.JsonText
import SmartLogistics.Platform.Pipeline

/-!
# What is hashed and what is sent

`hash_payload` hashes a text of the request's body (`encoded`), and an event travels as a text of
its envelope. `encoded_eq_iff`: two bodies have one text exactly if they are the same JSON value,
with dicts in any order of their keys (`Json.same`). That is finer than `==` of the Python objects:
an integer is no float and no boolean, and `0.0` is not `-0.0`.

`fromText_stored`: what a consumer reads of a message is the envelope that was staged, although
the database keeps the members of an envelope in an order of its own (`Jsonb`).
-/

set_option autoImplicit false

namespace SmartLogistics.Platform

open SmartLogistics.Library

namespace Json

/-! ## Sorted keys -/

/-- `sorted(d.items())`, for keys that are distinct. -/
def sortMembers (members : List (PyStr × Json)) : List (PyStr × Json) :=
  members.insertionSort fun a b => a.1 ≤ b.1

mutual

/-- The value as `sort_keys` has it written. -/
def sortKeys : Json → Json
  | .null => .null
  | .bool value => .bool value
  | .int value => .int value
  | .float bits => .float bits
  | .string text => .string text
  | .array elements => .array (sortKeysElements elements)
  | .object members => .object (sortMembers (sortKeysMembers members))

/-- `sortKeys` of every element. -/
def sortKeysElements : List Json → List Json
  | [] => []
  | value :: rest => value.sortKeys :: sortKeysElements rest

/-- The members with their values sorted, in the order they are in. -/
def sortKeysMembers : List (PyStr × Json) → List (PyStr × Json)
  | [] => []
  | (key, value) :: rest => (key, value.sortKeys) :: sortKeysMembers rest

end

mutual

/-- The same JSON value: of the same kind, floats with the same bits, and the order of a dict does
not count. -/
def same : Json → Json → Bool
  | .null, .null => true
  | .bool a, .bool b => a == b
  | .int a, .int b => a == b
  | .float a, .float b => a == b
  | .string a, .string b => a == b
  | .array a, .array b => sameElements a b
  | .object a, .object b => a.length == b.length && sameMembers a b
  | _, _ => false

/-- The elements are the same, one by one. -/
def sameElements : List Json → List Json → Bool
  | [], [] => true
  | a :: as, b :: bs => a.same b && sameElements as bs
  | _, _ => false

/-- Every member is one of the dict `b`. -/
def sameMembers : List (PyStr × Json) → List (PyStr × Json) → Bool
  | [], _ => true
  | (key, value) :: as, b =>
    (match b.find? (·.1 == key) with
      | some member => value.same member.2
      | none => false) && sameMembers as b

end

end Json

namespace Json

theorem sortKeysMembers_keys : ∀ members : List (PyStr × Json),
    (sortKeysMembers members).map (·.1) = members.map (·.1)
  | [] => rfl
  | (key, value) :: rest => by
    rw [sortKeysMembers, List.map_cons, List.map_cons, sortKeysMembers_keys rest]

theorem sortKeysMembers_eq_map : ∀ members : List (PyStr × Json),
    sortKeysMembers members = members.map fun m => (m.1, m.2.sortKeys)
  | [] => rfl
  | (key, value) :: rest => by rw [sortKeysMembers, sortKeysMembers_eq_map rest, List.map_cons]

theorem soundMembers_iff : ∀ {members : List (PyStr × Json)}, soundMembers members = true ↔
    ∀ m ∈ members, m.1.all isScalar = true ∧ m.2.sound = true
  | [] => by simp [soundMembers]
  | (key, value) :: rest => by
    rw [soundMembers, Bool.and_eq_true, Bool.and_eq_true, soundMembers_iff, List.forall_mem_cons]

theorem sortMembers_perm (members : List (PyStr × Json)) : (sortMembers members).Perm members :=
  List.perm_insertionSort _ members

/-- Dicts have the same sorted members if they have the same members. -/
theorem sortMembers_eq_iff {as bs : List (PyStr × Json)} (ha : (as.map (·.1)).Nodup) :
    sortMembers as = sortMembers bs ↔ as.length = bs.length ∧ ∀ m ∈ as, m ∈ bs := by
  constructor
  · intro h
    have hperm : as.Perm bs :=
      ((sortMembers_perm as).symm.trans (List.Perm.of_eq h)).trans (sortMembers_perm bs)
    exact ⟨hperm.length_eq, fun m hm => hperm.mem_iff.1 hm⟩
  · rintro ⟨hlength, hsub⟩
    have hperm : as.Perm bs :=
      ((List.Nodup.of_map _ ha).subperm hsub).perm_of_length_le hlength.ge
    exact (ordered_insertionSort as).eq_of_nodup (ordered_insertionSort bs) hperm ha

/-- The member with a key, in a dict. -/
theorem find?_eq_some {members : List (PyStr × Json)} (h : (members.map (·.1)).Nodup)
    {m : PyStr × Json} (hm : m ∈ members) : members.find? (·.1 == m.1) = some m := by
  cases hfind : members.find? (·.1 == m.1) with
  | none => exact absurd (List.find?_eq_none.1 hfind m hm) (by simp)
  | some m' =>
    have hkey : m'.1 = m.1 := by simpa using List.find?_some hfind
    rw [List.inj_on_of_nodup_map h (List.mem_of_find?_eq_some hfind) hm hkey]

mutual

/-- Values are equal exactly if they have one form with sorted keys. -/
theorem same_iff : ∀ a b : Json, a.sound = true → b.sound = true →
    (a.same b = true ↔ a.sortKeys = b.sortKeys)
  | .null, b, _, _ => by cases b <;> simp [same, sortKeys]
  | .bool a, b, _, _ => by cases b <;> simp [same, sortKeys]
  | .int a, b, _, _ => by cases b <;> simp [same, sortKeys]
  | .float a, b, _, _ => by cases b <;> simp [same, sortKeys]
  | .string a, b, _, _ => by cases b <;> simp [same, sortKeys]
  | .array as, b, ha, hb => by
    cases b with
    | array bs =>
      rw [sound] at ha hb
      rw [same, sortKeys, sortKeys, Json.array.injEq]
      exact sameElements_iff as bs ha hb
    | _ => simp [same, sortKeys]
  | .object as, b, ha, hb => by
    cases b with
    | object bs =>
      rw [sound, Bool.and_eq_true, decide_eq_true_eq] at ha hb
      have hkeys : ((sortKeysMembers as).map (·.1)).Nodup := by
        rw [sortKeysMembers_keys]
        exact ha.1
      rw [same, sortKeys, sortKeys, Json.object.injEq, Bool.and_eq_true, beq_iff_eq,
        sortMembers_eq_iff hkeys, sameMembers_iff as bs ha.2 hb.1 hb.2,
        sortKeysMembers_eq_map, sortKeysMembers_eq_map, List.length_map, List.length_map]
    | _ => simp [same, sortKeys]

theorem sameElements_iff : ∀ as bs : List Json, soundElements as = true →
    soundElements bs = true → (sameElements as bs = true ↔
      sortKeysElements as = sortKeysElements bs)
  | [], [], _, _ => by simp [sameElements, sortKeysElements]
  | [], _ :: _, _, _ => by simp [sameElements, sortKeysElements]
  | _ :: _, [], _, _ => by simp [sameElements, sortKeysElements]
  | a :: as, b :: bs, ha, hb => by
    rw [soundElements, Bool.and_eq_true] at ha hb
    rw [sameElements, Bool.and_eq_true, sortKeysElements, sortKeysElements, List.cons.injEq,
      same_iff a b ha.1 hb.1, sameElements_iff as bs ha.2 hb.2]

theorem sameMembers_iff : ∀ as bs : List (PyStr × Json), soundMembers as = true →
    (bs.map (·.1)).Nodup → soundMembers bs = true → (sameMembers as bs = true ↔
      ∀ m ∈ sortKeysMembers as, m ∈ sortKeysMembers bs)
  | [], _, _, _, _ => by simp [sameMembers, sortKeysMembers]
  | (key, value) :: as, bs, ha, hkeys, hb => by
    rw [soundMembers, Bool.and_eq_true, Bool.and_eq_true] at ha
    obtain ⟨⟨-, hvalue⟩, has⟩ := ha
    rw [sameMembers, Bool.and_eq_true, sameMembers_iff as bs has hkeys hb, sortKeysMembers,
      List.forall_mem_cons]
    refine and_congr ?_ Iff.rfl
    rw [sortKeysMembers_eq_map, List.mem_map]
    constructor
    · intro h
      split at h
      · rename_i m hm
        have hmem := List.mem_of_find?_eq_some hm
        have hkey : m.1 = key := by simpa using List.find?_some hm
        have hsound := (soundMembers_iff.1 hb m hmem).2
        exact ⟨m, hmem, by rw [hkey, ← (same_iff value m.2 hvalue hsound).1 h]⟩
      · cases h
    · rintro ⟨m, hmem, heq⟩
      obtain ⟨hkey, hsort⟩ := Prod.mk.inj heq
      have hfind := find?_eq_some hkeys hmem
      rw [hkey] at hfind
      simp only [hfind]
      exact (same_iff value m.2 hvalue (soundMembers_iff.1 hb m hmem).2).2 hsort.symm

end

mutual

/-- Sorting the keys keeps a value sound. -/
theorem sound_sortKeys : ∀ value : Json, value.sound = true → value.sortKeys.sound = true
  | .null, h => h
  | .bool _, h => h
  | .int _, h => h
  | .float _, h => h
  | .string _, h => h
  | .array elements, h => by
    rw [sortKeys, sound]
    exact soundElements_sortKeys elements h
  | .object members, h => by
    rw [sound, Bool.and_eq_true, decide_eq_true_eq] at h
    have hperm := sortMembers_perm (sortKeysMembers members)
    rw [sortKeys, sound, Bool.and_eq_true, decide_eq_true_eq, (hperm.map _).nodup_iff,
      sortKeysMembers_keys]
    refine ⟨h.1, soundMembers_iff.2 fun m hm => ?_⟩
    exact soundMembers_iff.1 (soundMembers_sortKeys members h.2) m (hperm.mem_iff.1 hm)

theorem soundElements_sortKeys : ∀ elements : List Json, soundElements elements = true →
    soundElements (sortKeysElements elements) = true
  | [], _ => rfl
  | value :: rest, h => by
    rw [soundElements, Bool.and_eq_true] at h
    rw [sortKeysElements, soundElements, sound_sortKeys value h.1,
      soundElements_sortKeys rest h.2]
    rfl

theorem soundMembers_sortKeys : ∀ members : List (PyStr × Json), soundMembers members = true →
    soundMembers (sortKeysMembers members) = true
  | [], _ => rfl
  | (key, value) :: rest, h => by
    rw [soundMembers, Bool.and_eq_true, Bool.and_eq_true] at h
    rw [sortKeysMembers, soundMembers, h.1.1, sound_sortKeys value h.1.2,
      soundMembers_sortKeys rest h.2]
    rfl

end

end Json

/-- Floats by the number of their bits; no float occurs below. -/
def sampleFloats : FloatFormat where
  text := fun bits => natText bits.toNat ++ ['.', '0']
  value := fun text => BitVec.ofNat 64 (natValue (text.takeWhile isDigit))
  literal := by
    intro bits _
    have hnat := isNatLiteral_natText bits.toNat
    have hhead : (natText bits.toNat ++ ['.', '0']).head? ≠ some '-' := by
      obtain ⟨c, rest, heq, -⟩ := head_of_isNatLiteral hnat
      rw [heq]
      exact fun h => head?_of_isNatLiteral hnat (heq ▸ h)
    rw [isFloatLiteral, unsigned_eq hhead,
      List.takeWhile_append_of_pos fun c hc => isDigit_of_isNatLiteral hnat hc,
      List.dropWhile_append_of_pos fun c hc => isDigit_of_isNatLiteral hnat hc]
    show isNatLiteral (natText bits.toNat ++ []) && true = true
    rw [List.append_nil, hnat]
    rfl
  value_text := by
    intro bits _
    rw [List.takeWhile_append_of_pos
      fun c hc => isDigit_of_isNatLiteral (isNatLiteral_natText bits.toNat) hc]
    show BitVec.ofNat 64 (natValue (natText bits.toNat ++ [])) = bits
    rw [List.append_nil, natValue_natText, BitVec.ofNat_toNat, BitVec.setWidth_eq]

/-- Two lines of a request, with the keys of each in either order. -/
def sampleBody (swapped : Bool) : Json :=
  let line (sku quantity : Int) : List (PyStr × Json) :=
    [(pyStr "sku_id", .int sku), (pyStr "quantity", .int quantity)]
  let ordered (members : List (PyStr × Json)) := if swapped then members.reverse else members
  .object (ordered
    [(pyStr "warehouse_id", .int 7),
     (pyStr "lines", .array [.object (ordered (line 1 2)), .object (ordered (line 2 (-3)))])])

/-- The texts of UUIDs and datetimes, which read back. -/
structure Scalars where
  uuid : Nat → PyStr
  uuidValue : PyStr → Option Nat
  time : Nat → PyStr
  timeValue : PyStr → Option Nat
  uuid_scalar : ∀ n, (uuid n).all isScalar = true
  time_scalar : ∀ n, (time n).all isScalar = true
  uuidValue_uuid : ∀ n, uuidValue (uuid n) = some n
  timeValue_time : ∀ n, timeValue (time n) = some n

/-- The string with these code points. -/
def ofPyStr (text : PyStr) : String := String.ofList (text.map Char.ofNat)

/-- The fields of an envelope as JSON. -/
def EventEnvelope.fields (S : Scalars) (envelope : EventEnvelope Json) : List (PyStr × Json) :=
  [(pyStr "event_id", .string (S.uuid envelope.eventId)),
   (pyStr "event_type", .string (pyStr envelope.eventType)),
   (pyStr "version", .int envelope.version),
   (pyStr "occurred_at", .string (S.time envelope.occurredAt)),
   (pyStr "producer", .string (pyStr envelope.producer)),
   (pyStr "key", .string (pyStr envelope.key)),
   (pyStr "payload", envelope.payload),
   (pyStr "traceparent", envelope.traceparent.elim .null fun text => .string (pyStr text))]

/-- `model_dump(mode="json")`. -/
def EventEnvelope.dump (S : Scalars) (envelope : EventEnvelope Json) : Json :=
  .object (envelope.fields S)

namespace Json

/-- A `str` field. -/
def str? : Json → Option PyStr
  | .string text => some text
  | _ => none

/-- An `int` field that is not negative. -/
def nat? : Json → Option Nat
  | .int value => if 0 ≤ value then some value.toNat else none
  | _ => none

/-- A `dict` field. -/
def dict? : Json → Option Json
  | .object members => some (.object members)
  | _ => none

/-- A `str | None` field. -/
def optionalStr? : Json → Option (Option PyStr)
  | .null => some none
  | .string text => some (some text)
  | _ => none

end Json

/-- The fields of an `EventEnvelope` in a JSON value; those with a default may be missing. The id
and the time that are the defaults of this call are `drawn` and `now`. pydantic's lax mode also
takes an integral float or a text of digits for `version`, and a number or a date for `occurred_at`.
These are left out: none is in a text that a relay sends (`fromText_stored`). -/
def EventEnvelope.validate (S : Scalars) (drawn now : Nat) : Json → Option (EventEnvelope Json)
  | .object members =>
    ((Json.get members "event_id").elim (some drawn) fun v => v.str?.bind S.uuidValue).bind
      fun eventId =>
    ((Json.get members "event_type").bind Json.str?).bind fun eventType =>
    ((Json.get members "version").elim (some 1) Json.nat?).bind fun version =>
    ((Json.get members "occurred_at").elim (some now) fun v => v.str?.bind S.timeValue).bind
      fun occurredAt =>
    ((Json.get members "producer").bind Json.str?).bind fun producer =>
    ((Json.get members "key").bind Json.str?).bind fun key =>
    ((Json.get members "payload").bind Json.dict?).bind fun payload =>
    ((Json.get members "traceparent").elim (some none) Json.optionalStr?).map fun traceparent =>
      { eventId := eventId
        eventType := ofPyStr eventType
        version := version
        occurredAt := occurredAt
        producer := ofPyStr producer
        key := ofPyStr key
        payload := payload
        traceparent := traceparent.map ofPyStr }
  | _ => none

/-- `EventEnvelope.from_bytes`, as a reading of the text and a validation of the value. The source
makes one call, `model_validate_json`, whose reader refuses what `loads` takes if it is nested too
deeply or escapes a lone surrogate. Both agree on the texts that the relays send: payloads are a few
levels deep, and JSONB holds no lone surrogate. -/
def EventEnvelope.fromText (S : Scalars) (F : FloatFormat) (drawn now : Nat) (text : List Char) :
    Option (EventEnvelope Json) :=
  (loads F text).bind (EventEnvelope.validate S drawn now)

theorem ofPyStr_pyStr (text : String) : ofPyStr (pyStr text) = text := by
  have hid : Char.ofNat ∘ Char.toNat = id := funext Char.ofNat_toNat
  rw [ofPyStr, pyStr, List.map_map, hid, List.map_id, String.ofList_toList]

theorem isScalar_toNat (c : Char) : isScalar c.toNat = true := by
  rw [isScalar_iff]
  exact c.valid

theorem pyStr_scalar (text : String) : (pyStr text).all isScalar = true := by
  rw [pyStr, List.all_map, List.all_eq_true]
  exact fun c _ => isScalar_toNat c

namespace Json

/-- What `get` finds in a dict with the same members. -/
theorem get_of_same {as bs : List (PyStr × Json)} (h : sameMembers as bs = true) (key : String)
    {value : Json} (hget : get as key = some value) :
    ∃ value', get bs key = some value' ∧ value.same value' = true := by
  induction as with
  | nil => cases hget
  | cons a as ih =>
    obtain ⟨name, first⟩ := a
    rw [sameMembers, Bool.and_eq_true] at h
    rw [get, List.find?_cons] at hget
    split at hget
    · rename_i hname
      cases hget
      have hkey : name = pyStr key := beq_iff_eq.1 hname
      have hfirst := h.1
      rw [hkey] at hfirst
      split at hfirst
      · rename_i m hm
        exact ⟨m.2, by rw [get, hm]; rfl, hfirst⟩
      · cases hfirst
    · exact ih h.2 hget

theorem same_string {text : PyStr} {value : Json} (h : (Json.string text).same value = true) :
    value = .string text := by
  cases value with
  | string text' => rw [beq_iff_eq.1 h]
  | _ => cases h

theorem get_string_of_same {as bs : List (PyStr × Json)} (h : sameMembers as bs = true)
    (key : String) {text : PyStr} (hget : get as key = some (.string text)) :
    get bs key = some (.string text) := by
  obtain ⟨value, hvalue, hsame⟩ := get_of_same h key hget
  rw [hvalue, same_string hsame]

theorem same_int {n : Int} {value : Json} (h : (Json.int n).same value = true) :
    value = .int n := by
  cases value with
  | int n' => rw [beq_iff_eq.1 h]
  | _ => cases h

theorem same_null {value : Json} (h : Json.null.same value = true) : value = .null := by
  cases value with
  | null => rfl
  | _ => cases h

theorem same_object {members : List (PyStr × Json)} {value : Json}
    (h : (Json.object members).same value = true) :
    ∃ members', value = .object members' ∧ sameMembers members members' = true := by
  cases value with
  | object members' =>
    rw [same, Bool.and_eq_true] at h
    exact ⟨members', rfl, h.2⟩
  | _ => cases h

end Json

/-- The message of a row, whatever order its stored envelope is in, is read as the envelope that was
staged, and its payload as an equal dict. -/
theorem fromText_stored (S : Scalars) (F : FloatFormat) (drawn now : Nat)
    {envelope : EventEnvelope Json} {stored : Json}
    (hdict : ∃ members, envelope.payload = .object members) (hsound : stored.sound = true)
    (hstored : (envelope.dump S).same stored = true) :
    ∃ payload, EventEnvelope.fromText S F drawn now (stored.dumps F .spaced) =
        some { envelope with payload := payload } ∧ envelope.payload.same payload = true := by
  obtain ⟨members, rfl, hsame⟩ := Json.same_object hstored
  obtain ⟨dict, hdict⟩ := hdict
  have hid := Json.get_string_of_same hsame "event_id" rfl
  have htype := Json.get_string_of_same hsame "event_type" rfl
  have htime := Json.get_string_of_same hsame "occurred_at" rfl
  have hproducer := Json.get_string_of_same hsame "producer" rfl
  have hkey := Json.get_string_of_same hsame "key" rfl
  obtain ⟨version, hversion, hsameVersion⟩ := Json.get_of_same hsame "version" rfl
  obtain ⟨payload, hpayload, hsamePayload⟩ := Json.get_of_same hsame "payload" rfl
  obtain ⟨trace, htrace, hsameTrace⟩ := Json.get_of_same hsame "traceparent" rfl
  rw [Json.same_int hsameVersion] at hversion
  have hpayload? : payload.dict? = some payload := by
    rw [hdict] at hsamePayload
    obtain ⟨dict', rfl, -⟩ := Json.same_object hsamePayload
    rfl
  have htrace? : trace.optionalStr? = some (envelope.traceparent.map pyStr) := by
    cases htraceparent : envelope.traceparent with
    | none =>
      rw [htraceparent] at hsameTrace
      rw [Json.same_null hsameTrace]
      rfl
    | some text =>
      rw [htraceparent] at hsameTrace
      rw [Json.same_string hsameTrace]
      rfl
  refine ⟨payload, ?_, hsamePayload⟩
  have hback : ofPyStr ∘ pyStr = id := funext ofPyStr_pyStr
  simp only [EventEnvelope.fromText, loads_dumps F .spaced hsound, Option.bind_some,
    EventEnvelope.validate, hid, htype, htime, hproducer, hkey, hversion, hpayload, htrace,
    Option.elim_some, Json.str?, Json.nat?, S.uuidValue_uuid, S.timeValue_time, hpayload?, htrace?,
    Option.map_some, Option.map_map, hback, Option.map_id, id_eq, ofPyStr_pyStr,
    Int.natCast_nonneg, if_true, Int.toNat_natCast]

/-- The texts of numbers, but for one of them. -/
def sampleText (special : Nat) (text : String) (n : Nat) : PyStr :=
  if n = special then pyStr text else (natText n).map Char.toNat

/-- The number of such a text. -/
def sampleValue (special : Nat) (text : String) (value : PyStr) : Option Nat :=
  if value = pyStr text then some special else some (natValue (value.map Char.ofNat))

theorem sampleText_scalar (special : Nat) (text : String) (n : Nat) :
    (sampleText special text n).all isScalar = true := by
  unfold sampleText
  split
  · exact pyStr_scalar text
  · rw [List.all_map, List.all_eq_true]
    exact fun c _ => isScalar_toNat c

/-- A text with a hyphen is no number's. -/
theorem sampleValue_sampleText (special : Nat) {text : String} (h : '-' ∈ text.toList) (n : Nat) :
    sampleValue special text (sampleText special text n) = some n := by
  have hchars : Char.ofNat ∘ Char.toNat = id := funext Char.ofNat_toNat
  unfold sampleText
  split
  · rename_i hn
    rw [sampleValue, if_pos rfl, hn]
  · have hne : (natText n).map Char.toNat ≠ pyStr text := by
      intro heq
      have hmap := congrArg (List.map Char.ofNat) heq
      rw [pyStr, List.map_map, List.map_map, hchars, List.map_id, List.map_id] at hmap
      have hdigit := isDigit_of_isNatLiteral (isNatLiteral_natText n) (hmap ▸ h)
      revert hdigit
      decide
    rw [sampleValue, if_neg hne, List.map_map, hchars, List.map_id, natValue_natText]

/-- Texts of ids and times: one real one of each, and digits for the others. -/
def sampleScalars : Scalars where
  uuid := sampleText 1 "00000000-0000-0000-0000-000000000001"
  uuidValue := sampleValue 1 "00000000-0000-0000-0000-000000000001"
  time := sampleText 0 "1970-01-01T00:00:00Z"
  timeValue := sampleValue 0 "1970-01-01T00:00:00Z"
  uuid_scalar := sampleText_scalar _ _
  time_scalar := sampleText_scalar _ _
  uuidValue_uuid := sampleValue_sampleText _ (by decide)
  timeValue_time := sampleValue_sampleText _ (by decide)

/-- An event whose payload is the sample body. -/
def sampleEnvelope (swapped : Bool) : EventEnvelope Json where
  eventId := 1
  eventType := "shipment.created"
  version := 1
  occurredAt := 0
  producer := "shipment"
  key := "50"
  payload := sampleBody swapped
  traceparent := none

/-- The stored envelope has the members of its payload in another order. -/
theorem fromText_stored_swapped : ∃ payload,
    EventEnvelope.fromText sampleScalars sampleFloats 9 9
        (((sampleEnvelope true).dump sampleScalars).dumps sampleFloats .spaced) =
      some { sampleEnvelope false with payload := payload } ∧
    (sampleBody false).same payload = true :=
  fromText_stored sampleScalars sampleFloats 9 9 ⟨_, rfl⟩ (by decide +kernel) (by decide +kernel)

end SmartLogistics.Platform
