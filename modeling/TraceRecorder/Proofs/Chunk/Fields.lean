/-
# Fields read back

A reader that asks for the kind of a field finds the field that stands in front, whatever follows
it, and its cursor stands behind the field then (`FieldReader.runOn_field`).  Only a text must be
short enough for its length to be a word (`Field.Fits`).

So what a thread constant says is read back from its value (`ThreadRecord.decode_threadValue`).
-/
import TraceRecorder.Proofs.Chunk.Segments
import TraceRecorder.ThreadIdentity

namespace TraceRecorder

/-! ## 1. Texts -/

namespace Bytes

@[simp] theorem text?_ofText (s : String) : text? (ofText s) = some s := by
  have hbytes : (⟨(ofText s).toArray⟩ : ByteArray) = s.toByteArray := rfl
  rw [text?, String.fromUTF8?, hbytes, dif_pos s.isValidUTF8]
  rfl

end Bytes

/-! ## 2. Fields -/

namespace Field

/-- **The field can be read back**: a text has a length that a word can hold. -/
def Fits : Field → Prop
  | text s => (Bytes.ofText s).length < UInt32.size
  | _ => True

theorem encodeAll_cons (f : Field) (rest : List Field) :
    encodeAll (f :: rest) = f.encode ++ encodeAll rest := by
  rw [encodeAll, List.map_cons, List.flatten_cons, encodeAll]

theorem length_encode_le {f : Field} {fields : List Field} (h : f ∈ fields) :
    f.encode.length ≤ (encodeAll fields).length :=
  (List.sublist_flatten_of_mem (List.mem_map_of_mem h)).length_le

end Field

namespace FieldReader

variable (rest : Bytes) (offset : Nat)

theorem runOn_take {count : Nat} {bytes : Bytes} (h : bytes.length = count) :
    Fallible.runOn (take count) ⟨bytes ++ rest, offset⟩ =
      (.ok bytes, ⟨rest, offset + bytes.length⟩) := by
  subst h
  have hhas : Bytes.has bytes.length (bytes ++ rest) = true := by
    rw [Bytes.has_iff, List.length_append]
    exact Nat.le_add_right ..
  simp [take, hhas]

theorem runOn_word (w : UInt64) :
    Fallible.runOn word ⟨Field.encode (.word w) ++ rest, offset⟩ =
      (.ok w, ⟨rest, offset + (Field.encode (.word w)).length⟩) := by
  have hword : Bytes.word64 (Bytes.ofWord64 w) = w := by
    simpa using Bytes.word64_ofWord64_append w []
  simp [word, Field.encode, runOn_take rest offset (Bytes.length_ofWord64 w), hword]

theorem runOn_flag (b : Bool) :
    Fallible.runOn flag ⟨Field.encode (.flag b) ++ rest, offset⟩ =
      (.ok b, ⟨rest, offset + (Field.encode (.flag b)).length⟩) := by
  cases b <;> rfl

theorem runOn_text {s : String} (h : (Bytes.ofText s).length < UInt32.size) :
    Fallible.runOn text ⟨Field.encode (.text s) ++ rest, offset⟩ =
      (.ok s, ⟨rest, offset + (Field.encode (.text s)).length⟩) := by
  have hlength := Bytes.toNat_word32_digits_append h []
  rw [List.append_nil] at hlength
  have hdigits := Bytes.length_digits 4 (Bytes.ofText s).length
  simp [text, Field.encode, runOn_take _ _ hdigits, hlength, runOn_take, Nat.add_assoc]

/-- **A field that stands in front is read**, and the cursor moves behind it. -/
theorem runOn_field {f : Field} (h : f.Fits) :
    Fallible.runOn (field f.kind) ⟨f.encode ++ rest, offset⟩ =
      (.ok f, ⟨rest, offset + f.encode.length⟩) := by
  cases f with
  | word w => simp [Field.kind, field, runOn_word]
  | flag b => simp [Field.kind, field, runOn_flag]
  | text s => simp [Field.kind, field, runOn_text rest offset h]

end FieldReader

/-! ## 3. Thread constants -/

namespace ThreadRecord

/-- What a thread constant says that was written so. -/
def written (id : ThreadId) (osId : UInt64) (name : String) (groupId : UInt64) (isVirtual : Bool)
    (carrier : Option ThreadId) : ThreadRecord :=
  ⟨id, osId, name, groupId, isVirtual, if carrier.getD 0 = 0 then none else carrier⟩

/-- **A thread is read back from its constant**, if the length of the value is a word. -/
theorem decode_threadValue (id : ThreadId) (osId : UInt64) (name : String) (groupId : UInt64)
    (isVirtual : Bool) (carrier : Option ThreadId)
    (h : (ThreadInfo.threadValue osId name groupId isVirtual carrier).length < UInt32.size) :
    decode id (ThreadInfo.threadValue osId name groupId isVirtual carrier) =
      .ok (written id osId name groupId isVirtual carrier) := by
  have hname : (Bytes.ofText name).length < UInt32.size := by
    have hmem : Field.text name ∈ [.word osId, .text name, .word groupId, .flag isVirtual,
        .word (carrier.getD 0)] := by simp
    have hfield := Field.length_encode_le hmem
    simp only [Field.encode, List.length_append] at hfield
    unfold ThreadInfo.threadValue at h
    omega
  have hcarrier : (if carrier.getD 0 = 0 then none else some (carrier.getD 0)) =
      if carrier.getD 0 = 0 then none else carrier := by
    cases carrier <;> rfl
  simp only [decode, reader, ThreadInfo.threadValue, Field.encodeAll_cons, Fallible.runOn_bind,
    FieldReader.runOn_word, FieldReader.runOn_text _ _ hname, FieldReader.runOn_flag,
    Fallible.runOn_pure, hcarrier]
  rfl

end ThreadRecord

end TraceRecorder
