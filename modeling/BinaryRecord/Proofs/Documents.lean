import BinaryRecord.Json.Reading
import BinaryRecord.Record.Document

namespace BinaryRecord

section Decoding

theorem mapM_map_of_inverse {α β : Type} (write : α → β) (read : β → Option α)
    (inverse : ∀ item, read (write item) = some item) (items : List α) :
    (items.map write).mapM read = some items := by
  induction items with
  | nil => rfl
  | cons item items ih => simp [inverse, ih]

theorem lookup_object_cons (key other : String) (value : Json) (entries : List (String × Json)) :
    Json.entry? key (.object ((other, value) :: entries)) =
      if key = other then some value else Json.entry? key (.object entries) := by
  change ((other, value) :: entries).lookup key = _
  rw [List.lookup_cons]
  by_cases same : key = other
  · simp [same]
  · rw [if_neg same, beq_false_of_ne same]
    rfl

theorem numeric?_toJson (number : Numeric) : number.toJson.numeric? = some number := by
  cases number <;> rfl

theorem shape?_field (name : Json) (shape : Shape) :
    (Json.object (("name", name) :: shape.entries)).shape? = some shape := by
  cases shape <;>
    simp [Shape.entries, Json.shape?, lookup_object_cons, Json.text?, Json.number?, numeric?_toJson]

theorem field?_toJson (field : Field) : field.toJson.field? = some field := by
  have shape := shape?_field (.text field.name) field.shape
  simp [Field.toJson, Field.entries, Json.field?, shape, lookup_object_cons, Json.text?]

theorem field?_cons_member (mark : Json) (entries : List (String × Json)) :
    (Json.object (("member", mark) :: entries)).field? = (Json.object entries).field? := by
  simp [Json.field?, Json.shape?, lookup_object_cons]

theorem flagWord?_cons_member (mark : Json) (entries : List (String × Json)) :
    (Json.object (("member", mark) :: entries)).flagWord? = (Json.object entries).flagWord? := by
  simp [Json.flagWord?, lookup_object_cons]

theorem flagWord?_entries (word : FlagWord) : (Json.object word.entries).flagWord? = some word := by
  have flags := mapM_map_of_inverse Field.toJson Json.field? field?_toJson word.flags
  simp [Json.flagWord?, FlagWord.entries, lookup_object_cons, Json.items?, flags, Json.text?,
    Json.number?, numeric?_toJson]

theorem member?_toJson (member : Member) : member.toJson.member? = some member := by
  cases member with
  | plain field =>
      have read : (Json.object field.entries).field? = some field := field?_toJson field
      simp [Member.toJson, Json.member?, lookup_object_cons, Json.text?, field?_cons_member, read]
  | packed word =>
      simp [Member.toJson, Json.member?, lookup_object_cons, Json.text?, flagWord?_cons_member,
        flagWord?_entries]

theorem record?_toJson (record : Record) : record.toJson.record? = some record := by
  have members := mapM_map_of_inverse Member.toJson Json.member? member?_toJson record.members
  simp [Record.toJson, Json.record?, lookup_object_cons, Json.items?, members, Json.text?]

theorem readRecords?_render (records : List Record) :
    readRecords? (recordsJson records).render = some records := by
  have items := mapM_map_of_inverse Record.toJson Json.record? record?_toJson records
  rw [readRecords?, Json.read?_render]
  simpa [recordsJson, Json.records?, Json.items?] using items

end Decoding

section Keys

inductive Json.KeysApart : Json → Prop
  | text (value : String) : KeysApart (.text value)
  | number (value : Nat) : KeysApart (.number value)
  | list (items : List Json) (inside : ∀ item ∈ items, item.KeysApart) : KeysApart (.list items)
  | object (entries : List (String × Json)) (apart : (entries.map Prod.fst).Nodup)
      (inside : ∀ entry ∈ entries, entry.2.KeysApart) : KeysApart (.object entries)

theorem keysApart_list_map {α : Type} (write : α → Json) (apart : ∀ item, (write item).KeysApart)
    (items : List α) : (Json.list (items.map write)).KeysApart := by
  apply Json.KeysApart.list
  intro item member
  obtain ⟨source, -, rfl⟩ := List.mem_map.mp member
  exact apart source

theorem Numeric.keysApart_toJson (number : Numeric) : number.toJson.KeysApart := .text number.tag

theorem Field.keysApart_of_mem (field : Field) : ∀ entry ∈ field.entries, entry.2.KeysApart := by
  obtain ⟨name, shape⟩ := field
  cases shape <;>
    simp [Field.entries, Shape.entries, Numeric.keysApart_toJson, Json.KeysApart.text,
      Json.KeysApart.number]

theorem Field.nodup_keys (field : Field) :
    ((("member", Json.text "field") :: field.entries).map Prod.fst).Nodup := by
  obtain ⟨name, shape⟩ := field
  cases shape <;> simp [Field.entries, Shape.entries]

theorem Field.keysApart_toJson (field : Field) : field.toJson.KeysApart :=
  .object _ (List.nodup_cons.mp field.nodup_keys).2 field.keysApart_of_mem

theorem Member.keysApart_toJson (member : Member) : member.toJson.KeysApart := by
  cases member with
  | plain field =>
      apply Json.KeysApart.object _ field.nodup_keys
      rw [List.forall_mem_cons]
      exact ⟨.text "field", field.keysApart_of_mem⟩
  | packed word =>
      have flags := keysApart_list_map Field.toJson Field.keysApart_toJson word.flags
      apply Json.KeysApart.object
      · simp [FlagWord.entries]
      · simp [FlagWord.entries, flags, Numeric.keysApart_toJson, Json.KeysApart.text,
          Json.KeysApart.number]

theorem keysApart_recordsJson (records : List Record) : (recordsJson records).KeysApart := by
  apply keysApart_list_map
  intro record
  have members := keysApart_list_map Member.toJson Member.keysApart_toJson record.members
  apply Json.KeysApart.object
  · simp
  · simp [members, Json.KeysApart.text]

end Keys

/-- One reader gets all records back from their text, which reads as a document without a key that
stands twice in an object. -/
theorem recordsJson_decodes :
    (∀ records, readRecords? (recordsJson records).render = some records) ∧
      (∀ first second, (recordsJson first).render = (recordsJson second).render →
        first = second) ∧
      ∀ records, ∃ document, Json.read? (recordsJson records).render = some document ∧
        document.KeysApart := by
  refine ⟨readRecords?_render, ?_, ?_⟩
  · intro first second same
    have read := readRecords?_render first
    rw [same, readRecords?_render second] at read
    exact (Option.some.inj read).symm
  · intro records
    exact ⟨recordsJson records, Json.read?_render _, keysApart_recordsJson records⟩

end BinaryRecord
