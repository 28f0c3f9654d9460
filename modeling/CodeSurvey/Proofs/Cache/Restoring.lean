import CodeSurvey.Proofs.Cache.Words

/-!
# Documents that are read back

What is written for a document is read as this document again, provided that the form of
the values can be read back and that all counts and times are words.
-/

namespace CodeSurvey
namespace Cache

open Record.Fields (assemble_eq_ok_iff)

/-!
# Forms
-/

/-- A value can be read as it was written, also inside of a document, where three brackets
are around it. -/
structure Form.Restores (form : Form v) (x : v) : Prop where
  readable : (form.encode x).Readable (Json.Outline.depthLimit - 3)
  decode : form.decode (.ofValue (form.encode x).canonical) = .ok x

namespace Form

theorem restores_text (s : String) : text.Restores s where
  readable := .text
  decode := rfl

theorem restores_word {n : Nat} (h : n < Nat.pow 2 32) : word.Restores n where
  readable := .number (Json.Number.legible_integer (by omega) (by
    have hlimits : Nat.pow 2 32 < Nat.pow 2 64 := by decide
    omega))
  decode := Json.Reader.below_natural h

theorem restores_json {x : Json.Value} (h : x.Readable (Json.Outline.depthLimit - 3))
    (hcanonical : x.canonical = x) : json.Restores x where
  readable := h
  decode := by
    show Json.Outline.value? (.ofValue x.canonical) = _
    rw [Json.Outline.value?_ofValue, hcanonical, hcanonical]

end Form

namespace Entry

variable {form : Form v} {e : Entry v}

theorem readable_encode (hform : form.Restores e.value) (h : e.Fits) :
    (e.encode form).Readable (Json.Outline.depthLimit - 2) := by
  have hcount : forall {n : Nat}, n < countLimit -> (Json.Number.integer n).Legible := by
    intro n hn
    exact Json.Number.legible_integer (by omega) (Int.ofNat_lt.mpr hn)
  have htimestamp : (Json.Number.integer e.timestamp).Legible := by
    have hlimit : timeLimit ≤ (Nat.pow 2 64 : Nat) := by decide
    exact Json.Number.legible_integer h.low (Int.lt_of_lt_of_le h.high hlimit)
  apply Json.Value.Readable.object
  intro m hm
  simp only [List.mem_cons, List.not_mem_nil, or_false] at hm
  rcases hm with rfl | rfl | rfl | rfl | rfl
  · exact .text
  · exact hform.readable
  · exact .number (hcount h.size)
  · exact .number (hcount h.hits)
  · exact .number htimestamp

def members (form : Form v) (e : Entry v) : List (String × Json.Value) :=
  [("hits", .nat e.hits), ("key", .text e.key), ("size", .nat e.size),
    ("timestamp", .int e.timestamp), ("value", (form.encode e.value).canonical)]

theorem canonical_encode (form : Form v) (e : Entry v) :
    (e.encode form).canonical = .object (e.members form) := by
  simp only [encode, Json.Value.nat, Json.Value.int, Json.Value.canonical,
    Json.Value.canonicalMembers, Json.Value.sortMembers, List.foldl_cons, List.foldl_nil,
    Json.Value.insertMember, String.reduceLT, String.reduceEq, if_true, if_false, members]

theorem decode_encode (hform : form.Restores e.value) (h : e.Fits) :
    decode form (.ofValue (e.encode form).canonical) = .ok e := by
  have hvalue := hform.decode
  have hsize := Json.Reader.below_natural h.size
  have hhits := Json.Reader.below_natural h.hits
  have htimestamp := Json.Reader.integer_int h.low h.high
  have hnodup : ((e.members form).map Prod.fst).Nodup := by
    show ["hits", "key", "size", "timestamp", "value"].Nodup
    decide
  have hread : forall m, m ∈ e.members form -> exists slot,
      (fields form).slots.find? (fun slot => slot.name = m.1) = some slot ∧
        slot.fault (.ofValue m.2) = none := by
    intro m hm
    simp only [members, List.mem_cons, List.not_mem_nil, or_false] at hm
    rcases hm with rfl | rfl | rfl | rfl | rfl
    · exact ⟨_, rfl, Record.Reader.fault_eq_none hhits⟩
    · exact ⟨_, rfl, rfl⟩
    · exact ⟨_, rfl, Record.Reader.fault_eq_none hsize⟩
    · exact ⟨_, rfl, Record.Reader.fault_eq_none htimestamp⟩
    · exact ⟨_, rfl, Record.Reader.fault_eq_none hvalue⟩
  rw [canonical_encode]
  unfold decode
  rw [Json.read_object hnodup hread]
  apply assemble_eq_ok_iff.mpr
  refine ⟨mk e.key e.value e.size e.hits, _, _, ?_, rfl, htimestamp, rfl⟩
  apply assemble_eq_ok_iff.mpr
  refine ⟨mk e.key e.value e.size, _, _, ?_, rfl, hhits, rfl⟩
  apply assemble_eq_ok_iff.mpr
  refine ⟨mk e.key e.value, _, _, ?_, rfl, hsize, rfl⟩
  apply assemble_eq_ok_iff.mpr
  refine ⟨mk e.key, _, _, ?_, rfl, hvalue, rfl⟩
  exact assemble_eq_ok_iff.mpr ⟨mk, _, _, rfl, rfl, rfl, rfl⟩

end Entry

namespace Document

variable {form : Form v} {d : Document v}

theorem readable_encode (hform : forall e, e ∈ d.entries -> form.Restores e.value)
    (h : forall e, e ∈ d.entries -> e.Fits) :
    (d.encode form).Readable Json.Outline.depthLimit := by
  have hentries : (Json.Value.list (Entry.encode form) d.entries).Readable
      (Json.Outline.depthLimit - 1) := by
    apply Json.Value.Readable.array
    intro v hv
    rcases List.mem_map.mp hv with ⟨e, he, rfl⟩
    exact Entry.readable_encode (hform e he) (h e he)
  apply Json.Value.Readable.object
  intro m hm
  simp only [List.mem_cons, List.not_mem_nil, or_false] at hm
  rcases hm with rfl | rfl | rfl
  · exact .text
  · exact .text
  · exact hentries

def members (form : Form v) (d : Document v) : List (String × Json.Value) :=
  [("createdAt", .text d.createdAt),
    ("entries", (Json.Value.list (Entry.encode form) d.entries).canonical),
    ("version", .text d.version)]

theorem canonical_encode (form : Form v) (d : Document v) :
    (d.encode form).canonical = .object (d.members form) := by
  simp only [encode, Json.Value.canonical, Json.Value.canonicalMembers, Json.Value.sortMembers,
    List.foldl_cons, List.foldl_nil, Json.Value.insertMember, String.reduceLT, String.reduceEq,
    if_true, if_false, members]

theorem decode_encode (hform : forall e, e ∈ d.entries -> form.Restores e.value)
    (h : forall e, e ∈ d.entries -> e.Fits) :
    decode form (.ofValue (d.encode form).canonical) = .ok d := by
  have hentries := Json.Reader.list_ofItems fun e he => Entry.decode_encode (hform e he) (h e he)
  have hnodup : ((d.members form).map Prod.fst).Nodup := by
    show ["createdAt", "entries", "version"].Nodup
    decide
  have hread : forall m, m ∈ d.members form -> exists slot,
      (fields form).slots.find? (fun slot => slot.name = m.1) = some slot ∧
        slot.fault (.ofValue m.2) = none := by
    intro m hm
    simp only [members, List.mem_cons, List.not_mem_nil, or_false] at hm
    rcases hm with rfl | rfl | rfl
    · exact ⟨_, rfl, rfl⟩
    · exact ⟨_, rfl, Record.Reader.fault_eq_none hentries⟩
    · exact ⟨_, rfl, rfl⟩
  rw [canonical_encode]
  unfold decode
  rw [Json.read_object hnodup hread]
  apply assemble_eq_ok_iff.mpr
  refine ⟨mk d.version d.createdAt, _, _, ?_, rfl, hentries, rfl⟩
  apply assemble_eq_ok_iff.mpr
  refine ⟨mk d.version, _, _, ?_, rfl, rfl, rfl⟩
  exact assemble_eq_ok_iff.mpr ⟨mk, _, _, rfl, rfl, rfl, rfl⟩

/-- The text of a document is read as this document. -/
theorem parse_text (hversion : d.version = documentVersion)
    (hform : forall e, e ∈ d.entries -> form.Restores e.value)
    (h : forall e, e ∈ d.entries -> e.Fits) (path : String) :
    parse form path (d.text form) = .ok d := by
  have hparse : Json.Value.parse (d.text form) = .ok (.object (d.members form)) := by
    rw [← canonical_encode]
    exact Json.Value.parse_pretty (readable_encode hform h)
  have hfound : (Json.Value.object (d.members form)).member? "version" >>= Json.Value.text? =
      some d.version := rfl
  have hread : Json.Reader.readValue (decode form) (.object (d.members form)) = .ok d := by
    apply mapError_eq_ok_iff.mpr
    rw [← canonical_encode]
    exact decode_encode hform h
  apply bind_eq_ok_iff.mpr
  refine ⟨_, mapError_eq_ok_iff.mpr hparse, ?_⟩
  rw [hfound]
  simp only [hversion, if_true]
  exact mapError_eq_ok_iff.mpr hread

/-- The file has all that is in the document, and it is read as this document when its entries
can be read back. -/
structure InFile (form : Form v) (d : Document v) (tree : Files.Tree) (file : String) : Prop where
  text : tree.readText file = .ok (Json.Value.object
    [("version", .text d.version),
     ("createdAt", .text d.createdAt),
     ("entries", .array (d.entries.map fun e => .object
       [("key", .text e.key),
        ("value", form.encode e.value),
        ("size", .nat e.size),
        ("hits", .nat e.hits),
        ("timestamp", .int e.timestamp)]))]).pretty
  reads : (forall e, e ∈ d.entries -> e.Fits ∧ form.Restores e.value) ->
    exists content, tree.readText file = .ok content ∧ parse form file content = .ok d

theorem inFile_of_readText (hversion : d.version = documentVersion) {tree : Files.Tree}
    {file : String} (hread : tree.readText file = .ok (d.text form)) :
    d.InFile form tree file where
  text := hread
  reads := by
    intro h
    refine ⟨_, hread, parse_text hversion ?_ ?_ file⟩
    · exact fun e he => (h e he).2
    · exact fun e he => (h e he).1

end Document
end Cache
end CodeSurvey
