import Mathlib.Data.List.Forall2
import OdinSchema.Descriptor.Writing
import OdinSchema.Generation
import OdinSchema.Proofs.WireFormat

/-!
# What is sent is what was answered

A response is a message that holds a message for every generated file, and a
file may be of any length. Whoever receives it knows the wire format and the
numbers of the fields, and takes apart what was sent by these alone:
`Received.Decodes` says what the bytes hold by the format, without a limit to
lengths, and `Received.read` reads them with the limits of a reader. Both give
the response that was written, and no other.
-/

namespace OdinSchema

open Wire

/-! ## Receiving -/

/-- A generated file as it is received: what was set of it. -/
structure ReceivedFile where
  name : Option Verbatim
  content : Option Verbatim
  deriving DecidableEq, Repr

/-- A response as it is received: what was set of it. -/
structure Received where
  error : Option Verbatim
  features : Option Nat
  files : List ReceivedFile
  deriving DecidableEq, Repr

/-- The file that records describe. -/
def ReceivedFile.ofRecords (records : List Record) : ReceivedFile where
  name := (texts 1 records).getLast?
  content := (texts 15 records).getLast?

/-- The response that records describe, given the files in it. -/
def Received.ofRecords (records : List Record) (files : List ReceivedFile) : Received where
  error := (texts 1 records).getLast?
  features := (varints 2 records).getLast?
  files := files

/-- Bytes that hold a file. -/
def ReceivedFile.Decodes (bytes : Bytes) (file : ReceivedFile) : Prop :=
  ∃ records depth, Encodes Varint.Encodes bytes records depth ∧ file = .ofRecords records

/-- Bytes that hold a response. -/
def Received.Decodes (bytes : Bytes) (received : Received) : Prop :=
  ∃ records depth files, Encodes Varint.Encodes bytes records depth ∧
    List.Forall₂ ReceivedFile.Decodes (payloads 15 records) files ∧
    received = .ofRecords records files

/-- Read a file. -/
def ReceivedFile.read (levels : Nat) (bytes : Bytes) : Option ReceivedFile :=
  (Record.readAll levels bytes).map .ofRecords

/-- Read a response. -/
def Received.read (bytes : Bytes) : Option Received := do
  let records ← Record.readAll 100 bytes
  let files ← submessages 100 ReceivedFile.read 15 records
  return .ofRecords records files

/-- What is to be received of a file. -/
def Output.received (o : Output) : ReceivedFile where
  name := some o.name
  content := some o.content

/-- What is to be received of a response. -/
def Response.received (r : Response) : Received where
  error := r.error.map .text
  features := some supportedFeatures
  files := r.files.map Output.received

/-- Responses that are received alike are the same. -/
theorem Response.eq_of_received_eq {r s : Response} (h : r.received = s.received) : r = s := by
  obtain ⟨error, files⟩ := r
  obtain ⟨error', files'⟩ := s
  have htext : Function.Injective Verbatim.text := fun _ _ heq => Verbatim.text.inj heq
  have hfile : Function.Injective Output.received := by
    rintro ⟨name, content⟩ ⟨name', content'⟩ heq
    simpa [Output.received] using heq
  simp only [received, Received.mk.injEq, true_and] at h
  rw [Option.map_injective htext h.1, List.map_injective_iff.2 hfile h.2]

/-! ## What the records hold -/

variable {number : Nat} {records : List Record}

theorem payloads_append (xs ys : List Record) :
    payloads number (xs ++ ys) = payloads number xs ++ payloads number ys :=
  List.filterMap_append

theorem Output.ofRecords_records (o : Output) : ReceivedFile.ofRecords o.records = o.received := by
  have hname : texts 1 o.records = [.text o.name] := by
    rw [← Verbatim.read_encode o.name]
    rfl
  have hcontent : texts 15 o.records = [.text o.content] := by
    rw [← Verbatim.read_encode o.content]
    rfl
  rw [ReceivedFile.ofRecords, hname, hcontent]
  rfl

namespace Response

variable (r : Response)

theorem payloads_records : payloads 15 r.records = r.files.map fun o => Record.writeAll o.records := by
  have herror : payloads 15 (r.error.toList.map (textRecord 1)) = [] := by
    cases r.error <;> rfl
  have hfiles : payloads 15 (r.files.map fun o => messageRecord 15 o.records) =
      r.files.map fun o => Record.writeAll o.records := by
    rw [payloads, List.filterMap_map, ← List.filterMap_eq_map]
    rfl
  rw [records, payloads_append, payloads_append, herror, hfiles]
  rfl

theorem texts_records : texts 1 r.records = r.error.toList.map .text := by
  have hfiles : payloads 1 (r.files.map fun o => messageRecord 15 o.records) = [] := by
    rw [payloads, List.filterMap_map, List.filterMap_eq_nil_iff]
    exact fun _ _ => rfl
  rw [texts, records, payloads_append, payloads_append, hfiles]
  cases r.error with
  | none => rfl
  | some error => exact congrArg (fun text => [text]) (Verbatim.read_encode error)

theorem varints_records : varints 2 r.records = [supportedFeatures] := by
  have hfiles : varints 2 (r.files.map fun o => messageRecord 15 o.records) = [] := by
    rw [varints, List.filterMap_map, List.filterMap_eq_nil_iff]
    exact fun _ _ => rfl
  have herror : varints 2 (r.error.toList.map (textRecord 1)) = [] := by
    cases r.error <;> rfl
  have happend : ∀ xs ys : List Record, varints 2 (xs ++ ys) = varints 2 xs ++ varints 2 ys :=
    fun _ _ => List.filterMap_append
  rw [records, happend, happend, herror, hfiles]
  rfl

/-- **The records of a response describe it.** -/
theorem ofRecords_records : Received.ofRecords r.records (r.files.map Output.received) = r.received := by
  rw [Received.ofRecords, texts_records, varints_records, received]
  cases r.error <;> rfl

end Response

/-! ## Lengths -/

/-- A payload is no longer than what it is written in. -/
theorem length_payload_le {payload : Bytes} (h : ⟨number, .bytes payload⟩ ∈ records) :
    payload.length ≤ (Record.writeAll records).length := by
  have hwrite : payload.length ≤ (Record.write ⟨number, .bytes payload⟩).length := by
    simp only [Record.write, Value.write, List.length_append]
    omega
  have hmem : (Record.write ⟨number, .bytes payload⟩).length ≤ (Record.writeAll records).length :=
    (List.sublist_flatten_of_mem (List.mem_map_of_mem h)).length_le
  exact Nat.le_trans hwrite hmem

/-- A payload can be written if every length up to that of the whole can. -/
theorem writable_of_mem {lengths : LengthForm} {payload : Bytes}
    (hlengths : ∀ n ≤ (Record.writeAll records).length, lengths (Varint.write n) n)
    (hmem : ⟨number, .bytes payload⟩ ∈ records) (hpositive : number ≠ 0)
    (hsmall : number < 0x20000000) : Record.Writable lengths ⟨number, .bytes payload⟩ :=
  ⟨hpositive, hsmall, hlengths _ (length_payload_le hmem)⟩

namespace Response

variable {r : Response} {lengths : LengthForm}
variable (hlengths : ∀ n ≤ r.write.length, lengths (Varint.write n) n)

include hlengths

/-- What is written of a response encodes its records. -/
theorem encodes_write : Encodes lengths r.write r.records 0 := by
  refine encodes_writeAll fun x hx => ?_
  rcases List.mem_append.1 hx with hx' | hfile
  · rcases List.mem_append.1 hx' with herror | hfeatures
    · obtain ⟨error, -, rfl⟩ := List.mem_map.1 herror
      exact writable_of_mem hlengths hx (by decide) (by decide)
    · rw [List.mem_singleton.1 hfeatures]
      exact ⟨by decide, by decide, (by decide : supportedFeatures < 0x10000000000000000)⟩
  · obtain ⟨o, -, rfl⟩ := List.mem_map.1 hfile
    exact writable_of_mem hlengths hx (by decide) (by decide)

/-- And the payload of each file encodes the records of the file. -/
theorem encodes_file {o : Output} (ho : o ∈ r.files) :
    Encodes lengths (Record.writeAll o.records) o.records 0 := by
  have hpayload : (Record.writeAll o.records).length ≤ r.write.length := by
    refine @length_payload_le 15 r.records _ (List.mem_append_right _ ?_)
    exact List.mem_map_of_mem ho
  have hfile : ∀ n ≤ (Record.writeAll o.records).length, lengths (Varint.write n) n :=
    fun n hn => hlengths n (Nat.le_trans hn hpayload)
  refine encodes_writeAll fun x hx => ?_
  rcases List.mem_cons.1 hx with rfl | hx'
  · exact writable_of_mem hfile hx (by decide) (by decide)
  · rw [List.mem_singleton.1 hx'] at hx ⊢
    exact writable_of_mem hfile hx (by decide) (by decide)

end Response

/-! ## Decoding -/

/-- Items that are each related to one other are together related to one
list. -/
theorem forall₂_iff_eq_map {α β : Type} {R : α → β → Prop} {f : α → β} {xs : List α} {ys : List β}
    (h : ∀ x ∈ xs, ∀ y, R x y ↔ y = f x) : List.Forall₂ R xs ys ↔ ys = xs.map f := by
  induction xs generalizing ys with
  | nil => simp
  | cons x xs ih =>
    obtain ⟨hx, hxs⟩ := List.forall_mem_cons.1 h
    rw [List.forall₂_cons_left_iff, List.map_cons]
    constructor
    · rintro ⟨y, ys', hy, hys', rfl⟩
      rw [(hx y).1 hy, (ih hxs).1 hys']
    · rintro rfl
      exact ⟨f x, xs.map f, (hx _).2 rfl, (ih hxs).2 rfl, rfl⟩

theorem mapM_eq_some_map {α β : Type} {f : α → Option β} {g : α → β} {xs : List α}
    (h : ∀ x ∈ xs, f x = some (g x)) : xs.mapM f = some (xs.map g) := by
  induction xs with
  | nil => rfl
  | cons x xs ih =>
    obtain ⟨hx, hxs⟩ := List.forall_mem_cons.1 h
    rw [List.mapM_cons, hx, ih hxs]
    rfl

namespace Response

/-- The payload of a file holds it, and nothing else. -/
theorem decodes_file_iff {r : Response} {o : Output} (ho : o ∈ r.files) (file : ReceivedFile) :
    ReceivedFile.Decodes (Record.writeAll o.records) file ↔ file = o.received := by
  have hencodes : Encodes Varint.Encodes (Record.writeAll o.records) o.records 0 :=
    encodes_file (fun n _ => Varint.encodes_write n) ho
  constructor
  · rintro ⟨records, depth, hrecords, rfl⟩
    obtain ⟨rfl, -⟩ := hrecords.unique (fun _ _ hlength => hlength) hencodes
    exact o.ofRecords_records
  · rintro rfl
    exact ⟨o.records, 0, hencodes, o.ofRecords_records.symm⟩

/-- **What is written of a response holds it, and nothing else.** -/
theorem decodes_write_iff (r : Response) (received : Received) :
    Received.Decodes r.write received ↔ received = r.received := by
  have hencodes : Encodes Varint.Encodes r.write r.records 0 :=
    encodes_write fun n _ => Varint.encodes_write n
  have hfiles : ∀ files, List.Forall₂ ReceivedFile.Decodes (payloads 15 r.records) files ↔
      files = r.files.map Output.received := by
    intro files
    rw [payloads_records, List.forall₂_map_left_iff]
    exact forall₂_iff_eq_map fun o ho => decodes_file_iff ho
  constructor
  · rintro ⟨records, depth, files, hrecords, hforall, rfl⟩
    obtain ⟨rfl, -⟩ := hrecords.unique (fun _ _ hlength => hlength) hencodes
    rw [(hfiles files).1 hforall, ofRecords_records]
  · rintro rfl
    exact ⟨r.records, 0, _, hencodes, (hfiles _).2 rfl, (ofRecords_records r).symm⟩

/-- **A reader gives the response that was written**, if it is not too long for
one. -/
theorem read_write {r : Response} (h : r.write.length < 0x80000000) :
    Received.read r.write = some r.received := by
  have hshort : ∀ n ≤ r.write.length, ShortLength (Varint.write n) n :=
    fun n hn => shortLength_write (Nat.lt_of_le_of_lt hn h)
  have hrecords : Record.readAll 100 r.write = some r.records := by
    rw [Record.readAll_of_encodes (encodes_write hshort), if_pos (Nat.zero_le _)]
  have hfile : ∀ o ∈ r.files,
      ReceivedFile.read 99 (Record.writeAll o.records) = some o.received := by
    intro o ho
    rw [ReceivedFile.read, Record.readAll_of_encodes (encodes_file hshort ho),
      if_pos (Nat.zero_le _), Option.map_some, o.ofRecords_records]
  have hfiles : submessages 100 ReceivedFile.read 15 r.records =
      some (r.files.map Output.received) := by
    rw [submessages, payloads_records, List.mapM_map]
    exact mapM_eq_some_map hfile
  simp only [Received.read, hrecords, hfiles, Option.bind_eq_bind, Option.bind_some, Option.pure_def,
    ofRecords_records]

end Response

/-- **What is sent is what was answered.** Let the input of a plugin be an
encoded request, the empty one or another, that is answered. By the wire
format, the bytes that are sent back hold the response, of whatever length its
texts are, and hold nothing else; a reader gives it, if they are short enough
for a reader; and no other response is received like it. -/
theorem sent_bytes_hold_response {input : Bytes} {request : Request} {environment : Option String}
    {answer : Answer} (hinput : Request.read input = some request)
    (hanswer : request.generate environment = .ok answer) :
    ∃ sent, respond input environment = .ok sent ∧
      (∀ received, Received.Decodes sent.encoded received ↔
        received = answer.outcome.response.received) ∧
      (sent.encoded.length < 0x80000000 →
        Received.read sent.encoded = some answer.outcome.response.received) ∧
      ∀ response : Response, response.received = answer.outcome.response.received →
        response = answer.outcome.response := by
  refine ⟨answer, ?_, Response.decodes_write_iff _, Response.read_write, fun response =>
    Response.eq_of_received_eq⟩
  simp only [respond, hinput, hanswer]

/-- A request for a file whose name has a letter of two bytes. -/
def accentedInput : Bytes :=
  Record.writeAll [textRecord 1 "é.proto",
    messageRecord 15 (FileDescriptor.records { name := "é.proto" })]

/-- The empty input is a request without files, and what is sent for it holds
no error and no file. What is sent for `accentedInput` holds the file under its
name. -/
theorem sent_bytes_hold_response_accented :
    (Request.read [] = some {} ∧ ∃ sent, respond [] none = .ok sent ∧
      Received.Decodes sent.encoded ⟨none, some 1, []⟩) ∧
    ∃ request answer sent, Request.read accentedInput = some request ∧
      request.generate none = .ok answer ∧
      answer.outcome.response.files.map (·.name) = ["é.pb.odin"] ∧
      respond accentedInput none = .ok sent ∧
      Received.Decodes sent.encoded answer.outcome.response.received := by
  constructor
  · have hrecords : Record.readAll 100 [] = some [] := Record.readAll_of_encodes .nil 100
    have hread : Request.read [] = some {} := by
      rw [Request.read, hrecords]
      rfl
    have hanswer : ({} : Request).generate none = .ok ⟨.generated [], []⟩ := rfl
    obtain ⟨sent, hsent, hdecodes, -, -⟩ := sent_bytes_hold_response hread hanswer
    exact ⟨hread, sent, hsent, (hdecodes _).2 rfl⟩
  · obtain ⟨request, hrequest⟩ : ∃ request, Request.read accentedInput = some request :=
      Option.isSome_iff_exists.1 (by decide +kernel)
    have hnames : (respond accentedInput none).map (fun answer =>
        answer.outcome.response.files.map (·.name)) = .ok ["é.pb.odin"] := by
      decide +kernel
    simp only [respond, hrequest] at hnames
    cases hanswer : request.generate none with
    | error failure =>
      rw [hanswer] at hnames
      cases hnames
    | ok answer =>
      rw [hanswer] at hnames
      obtain ⟨sent, hsent, hdecodes, -, -⟩ := sent_bytes_hold_response hrequest hanswer
      exact ⟨request, answer, sent, hrequest, hanswer, Except.ok.inj hnames, hsent, (hdecodes _).2 rfl⟩

end OdinSchema
