import CodeSurvey.Proofs.Record.Walking
import CodeSurvey.Proofs.Wire.Codec

/-!
# Layouts of records

The layout of a record lists its fields with their codecs and defaults.  The text of a record
keeps its meaning when its members are put in another order, when members are added that belong
to no field, when members are left out that hold the default of their field, and when a member
is changed in a way that its own codec ignores.
-/

namespace CodeSurvey
namespace Wire

open Json (Outline Value)
open Record.Fields (Clean findNamed)

/-- A field of a record `t`. -/
structure Column (n : Nat) (t : Type) where
  name : String
  content : Type
  part : t -> content
  codec : Codec n content
  /-- What is read where the field is not given. -/
  absent : Except Fault content

namespace Column

def slot (c : Column n t) : Record.Slot Outline :=
  { name := c.name, fault := Record.Reader.fault c.codec.decode }

def encode (c : Column n t) (x : t) : Value :=
  c.codec.encode (c.part x)

def Fits (c : Column n t) (x : t) : Prop :=
  c.codec.Fits (c.part x)

def Legible (c : Column n t) (x : t) : Prop :=
  c.codec.Legible (c.part x)

/-- The field holds what is read where it is not given. -/
def HoldsDefault (c : Column n t) (o : Outline) : Prop :=
  exists y, c.absent = .ok y ∧ c.codec.decode o = .ok y

/-- What is found for the field before and after a change. -/
inductive Keeps (c : Column n t) : Option Outline -> Option Outline -> Prop where
  | same : Keeps c found found
  | left (h : c.HoldsDefault o) : Keeps c (some o) none
  | changed (h : c.codec.change o o') : Keeps c (some o) (some o')

end Column

variable {n : Nat} {t : Type}

/-- The changes to the text of a record.  The member that is added, left out or changed stands
first: the others are brought there by putting the members in another order. -/
inductive RecordChange (columns : List (Column n t)) : Change where
  | reorder (hperm : members.Perm members') :
      RecordChange columns (.object members ending) (.object members' ending)
  | add (hname : name ∉ columns.map Column.name) (hskip : o.skipFault = none) :
      RecordChange columns (.object members ending) (.object ((some name, o) :: members) ending)
  | leaveOut (hcolumn : column ∈ columns) (hdefault : column.HoldsDefault o) :
      RecordChange columns (.object ((some column.name, o) :: members) ending)
        (.object members ending)
  | inside (hcolumn : column ∈ columns) (h : column.codec.change o o') :
      RecordChange columns (.object ((some column.name, o) :: members) ending)
        (.object ((some column.name, o') :: members) ending)

/-!
# Fields
-/

/-- The fields of a record `t` up to some point.  `make` is what they make of the parts of a
record, and `Holds P` says that `P` holds of all that they make of parts that fit. -/
structure Layout (n : Nat) (t b : Type) where
  fields : Record.Fields Outline b
  columns : List (Column n t)
  make : t -> b
  Holds : (b -> Prop) -> Prop
  slots : fields.slots = columns.map Column.slot
  restores : forall {x found},
    (forall c, c ∈ columns ->
      c.Fits x ∧ c.Legible x ∧ found c.name = some (.ofValue (c.encode x))) ->
      fields.assemble found = .ok (make x)
  holds : forall {P found y}, Holds P -> (forall name o, found name = some o -> o.Bounded n) ->
    fields.assemble found = .ok y -> P y
  ignores : forall {found found' y},
    (forall c, c ∈ columns -> c.Keeps (found c.name) (found' c.name)) ->
      fields.assemble found = .ok y -> fields.assemble found' = .ok y

namespace Layout

def start (f : b) : Layout n t b where
  fields := .pure f
  columns := []
  make := fun _ => f
  Holds := fun P => P f
  slots := rfl
  restores := fun _ => rfl
  holds := by
    rintro _ _ _ h _ ⟨⟩
    exact h
  ignores := fun _ h => h

/-- What is read for a field. -/
def readFound (codec : Codec n c) (absent : Except Fault c) : Option Outline -> Except Fault c
  | some o => codec.decode o
  | none => absent

theorem readFound_keeps {column : Column n t} {found found' : Option Outline}
    (h : column.Keeps found found') {y : column.content}
    (hread : readFound column.codec column.absent found = .ok y) :
    readFound column.codec column.absent found' = .ok y := by
  cases h with
  | same => exact hread
  | left h =>
      rcases h with ⟨z, habsent, hvalue⟩
      cases hvalue.symm.trans hread
      exact habsent
  | changed h => exact column.codec.ignores h hread

def field (l : Layout n t (c -> b)) (name : String) (part : t -> c) (codec : Codec n c)
    (absent : Except Fault c) (f : Record.Fields Outline c)
    (hslots : f.slots = [{ name, fault := Record.Reader.fault codec.decode }])
    (hassemble : forall found, f.assemble found = readFound codec absent (found name))
    (habsent : forall y, absent = .ok y -> codec.Fits y) : Layout n t b where
  fields := l.fields.apply f
  columns := l.columns ++ [{ name, content := c, part, codec, absent }]
  make := fun x => l.make x (part x)
  Holds := fun P => l.Holds fun g => forall z, codec.Fits z -> P (g z)
  slots := by
    show l.fields.slots ++ f.slots = _
    rw [l.slots, hslots, List.map_append]
    rfl
  restores := by
    intro x found h
    have hrest := l.restores fun c hc => h c (List.mem_append_left _ hc)
    rcases h _ (List.mem_append_right _ (List.mem_singleton.mpr rfl)) with ⟨hfits, hlegible, hfound⟩
    apply bind_eq_ok_iff.mpr
    refine ⟨_, hrest, bind_eq_ok_iff.mpr ⟨part x, ?_, rfl⟩⟩
    rw [hassemble, hfound]
    exact codec.restores hfits hlegible
  holds := by
    intro P found y hholds hbounded h
    rcases bind_eq_ok_iff.mp h with ⟨g, hg, h⟩
    rcases bind_eq_ok_iff.mp h with ⟨z, hz, h⟩
    cases h
    apply l.holds hholds hbounded hg
    rw [hassemble] at hz
    cases hfound : found name with
    | none =>
        rw [hfound] at hz
        exact habsent z hz
    | some o =>
        rw [hfound] at hz
        exact codec.fits (hbounded name o hfound) hz
  ignores := by
    intro found found' y h hread
    rcases bind_eq_ok_iff.mp hread with ⟨g, hg, hread⟩
    rcases bind_eq_ok_iff.mp hread with ⟨z, hz, hread⟩
    have hg' := l.ignores (fun c hc => h c (List.mem_append_left _ hc)) hg
    have hkeeps := h _ (List.mem_append_right _ (List.mem_singleton.mpr rfl))
    have hz' : f.assemble found' = .ok z := by
      rw [hassemble] at hz ⊢
      exact readFound_keeps hkeeps hz
    exact bind_eq_ok_iff.mpr ⟨g, hg', bind_eq_ok_iff.mpr ⟨z, hz', hread⟩⟩

theorem assemble_required (name : String) (codec : Codec n c) (found : String -> Option Outline) :
    (Record.Fields.required name codec.decode).assemble found =
      readFound codec (.error .mismatch) (found name) := by
  unfold Record.Fields.required
  simp only
  cases found name with
  | none => rfl
  | some o => rfl

theorem assemble_defaulted (name : String) (codec : Codec n c) (default : c)
    (found : String -> Option Outline) :
    (Record.Fields.defaulted name codec.decode default).assemble found =
      readFound codec (.ok default) (found name) := by
  unfold Record.Fields.defaulted
  simp only
  cases found name with
  | none => rfl
  | some o => rfl

def required (l : Layout n t (c -> b)) (name : String) (part : t -> c) (codec : Codec n c) :
    Layout n t b :=
  l.field name part codec (.error .mismatch) (.required name codec.decode) rfl
    (assemble_required name codec) nofun

def defaulted (l : Layout n t (c -> b)) (name : String) (part : t -> c) (codec : Codec n c)
    (default : c) (hdefault : codec.Fits default) : Layout n t b :=
  l.field name part codec (.ok default) (.defaulted name codec.decode default) rfl
    (assemble_defaulted name codec default) (fun _ h => Except.ok.inj h ▸ hdefault)

def optional (l : Layout n t (Option c -> b)) (name : String) (part : t -> Option c)
    (codec : Codec n c) (hpresent : codec.Present) : Layout n t b :=
  l.defaulted name part (codec.optional hpresent) none nofun

/-!
# Records
-/

variable {l : Layout n t t}

theorem names_slots (l : Layout n t b) :
    l.fields.slots.map Record.Slot.name = l.columns.map Column.name := by
  rw [l.slots, List.map_map]
  rfl

theorem mem_names {c : Column n t} (hc : c ∈ l.columns) :
    c.name ∈ l.fields.slots.map Record.Slot.name := by
  rw [names_slots]
  exact List.mem_map.mpr ⟨c, hc, rfl⟩

theorem find?_slot (hnodup : (l.columns.map Column.name).Nodup) {c : Column n t}
    (hc : c ∈ l.columns) :
    l.fields.slots.find? (fun slot => slot.name = c.name) = some c.slot := by
  cases hfind : l.fields.slots.find? fun slot => slot.name = c.name with
  | none => exact absurd (mem_names hc) (Record.Fields.find?_eq_none_iff.mp hfind)
  | some slot =>
      have hmem := List.mem_of_find?_eq_some hfind
      have hname := List.find?_some hfind
      rw [l.slots] at hmem
      rcases List.mem_map.mp hmem with ⟨c', hc', rfl⟩
      rw [List.inj_on_of_nodup_map hnodup hc' hc (of_decide_eq_true hname)]

theorem read_object {members : List (Option String × Outline)} {ending : Json.Ending} {x : t} :
    l.fields.read (.object members ending) = .ok x ↔
      ending.fault = none ∧ Clean l.fields.slots members ∧
        l.fields.assemble (findNamed members) = .ok x :=
  Record.Fields.read_named rfl

/-- Every field is written, with its default too. -/
def encode (l : Layout n t t) (x : t) : Value :=
  .object (l.columns.map fun c => (c.name, c.encode x))

theorem read_encode (hnodup : (l.columns.map Column.name).Nodup) {x : t}
    (hfits : forall c, c ∈ l.columns -> c.Fits x)
    (hlegible : forall c, c ∈ l.columns -> c.Legible x) :
    l.fields.read (.ofValue (l.encode x)) = .ok (l.make x) := by
  let members := l.columns.map fun c => (c.name, c.encode x)
  have hclean : Clean l.fields.slots (Outline.ofMembers members) := by
    apply Json.clean_ofMembers
    · rw [List.map_map]
      exact hnodup
    · intro m hm
      rcases List.mem_map.mp hm with ⟨c, hc, rfl⟩
      exact ⟨c.slot, find?_slot hnodup hc,
        Record.Reader.fault_eq_none (c.codec.restores (hfits c hc) (hlegible c hc))⟩
  refine read_object.mpr ⟨rfl, hclean, l.restores fun c hc => ⟨hfits c hc, hlegible c hc, ?_⟩⟩
  rw [hclean.findNamed_eq_some_iff (mem_names hc), Json.Outline.ofMembers_eq_map]
  exact List.mem_map.mpr ⟨(c.name, c.encode x), List.mem_map.mpr ⟨c, hc, rfl⟩, rfl⟩

/-- What is read of a bounded outline is made of parts that fit. -/
theorem holds_of_read {P : t -> Prop} (hholds : l.Holds P) {o : Outline} (ho : o.Bounded (n + 1))
    {x : t} (h : l.fields.read o = .ok x) : P x := by
  cases ho with
  | @object members _ ending hmembers =>
      rcases read_object.mp h with ⟨_, _, h⟩
      apply l.holds hholds (fun name o hfound => ?_) h
      rcases List.lookup_eq_some_iff.mp hfound with ⟨before, after, rfl, _⟩
      exact hmembers (some name, o) (List.mem_append_right _ List.mem_cons_self)
  | @array items _ ending hitems =>
      have hparts : Record.Source.parts (Outline.array items ending) =
          .listed items ending.fault := rfl
      unfold Record.Fields.read at h
      rw [hparts] at h
      simp only at h
      split at h
      next => cases h
      next =>
        apply l.holds hholds (fun name o hfound => ?_) h
        rcases List.lookup_eq_some_iff.mp hfound with ⟨before, after, hzip, _⟩
        have hmem : (name, o) ∈ (l.fields.slots.map Record.Slot.name).zip items :=
          hzip ▸ List.mem_append_right _ List.mem_cons_self
        exact hitems o (List.of_mem_zip hmem).2
  | _ => cases h

theorem ignores_change (hnodup : (l.columns.map Column.name).Nodup) {o o' : Outline}
    (h : RecordChange l.columns o o') {x : t} (hread : l.fields.read o = .ok x) :
    l.fields.read o' = .ok x := by
  have hfind : forall {c : Column n t}, c ∈ l.columns -> _ := find?_slot hnodup
  -- After each change the members are still clean, and what is found is another one for the
  -- field of the changed member only.
  cases h with
  | @reorder members members' ending hperm =>
      rcases read_object.mp hread with ⟨hending, hclean, hread⟩
      refine read_object.mpr ⟨hending, hclean.perm hperm, l.ignores (fun c hc => ?_) hread⟩
      rw [hclean.findNamed_perm hperm (mem_names hc)]
      exact .same
  | @add name o members ending hname hskip =>
      rcases read_object.mp hread with ⟨hending, hclean, hread⟩
      have hslot := Record.Fields.find?_eq_none_iff.mpr (names_slots l ▸ hname)
      refine read_object.mpr ⟨hending, (Record.Fields.clean_cons_unknown hslot).mpr ⟨hskip, hclean⟩,
        l.ignores (fun c hc => ?_) hread⟩
      have hne : some c.name ≠ some name := by
        rintro ⟨⟩
        exact hname (List.mem_map.mpr ⟨c, hc, rfl⟩)
      rw [Record.Fields.findNamed_cons_of_ne hne]
      exact .same
  | @leaveOut column o members ending hcolumn hdefault =>
      rcases read_object.mp hread with ⟨hending, hclean, hread⟩
      rcases (Record.Fields.clean_cons_known (hfind hcolumn)).mp hclean with ⟨_, hnew, hrest⟩
      refine read_object.mpr ⟨hending, hrest, l.ignores (fun c hc => ?_) hread⟩
      by_cases hname : c.name = column.name
      · cases List.inj_on_of_nodup_map hnodup hc hcolumn hname
        rw [Record.Fields.findNamed_cons_self, Record.Fields.findNamed_eq_none (mem_names hc) hnew]
        exact .left hdefault
      · rw [Record.Fields.findNamed_cons_of_ne (fun heq => hname (Option.some.inj heq))]
        exact .same
  | @inside column o o' members ending hcolumn hchange =>
      rcases read_object.mp hread with ⟨hending, hclean, hread⟩
      rcases (Record.Fields.clean_cons_known (hfind hcolumn)).mp hclean with ⟨hfault, hnew, hrest⟩
      have hfault' : column.slot.fault o' = none := by
        rcases Record.Reader.exists_of_fault_eq_none hfault with ⟨y, hy⟩
        exact Record.Reader.fault_eq_none (column.codec.ignores hchange hy)
      refine read_object.mpr ⟨hending,
        (Record.Fields.clean_cons_known (hfind hcolumn)).mpr ⟨hfault', hnew, hrest⟩,
        l.ignores (fun c hc => ?_) hread⟩
      by_cases hname : c.name = column.name
      · cases List.inj_on_of_nodup_map hnodup hc hcolumn hname
        rw [Record.Fields.findNamed_cons_self, Record.Fields.findNamed_cons_self]
        exact .changed hchange
      · have hne : some c.name ≠ some column.name := fun heq => hname (Option.some.inj heq)
        rw [Record.Fields.findNamed_cons_of_ne hne, Record.Fields.findNamed_cons_of_ne hne]
        exact .same

/-- All parts of a record fit. -/
def Fits (l : Layout n t t) (x : t) : Prop :=
  l.columns.Forall fun c => c.Fits x

def Legible (l : Layout n t t) (x : t) : Prop :=
  l.columns.Forall fun c => c.Legible x

/-- The codec of a record with fields of these names. -/
def codec (l : Layout n t t) (names : List String) (hnames : l.columns.map Column.name = names)
    (hnodup : names.Nodup) (hmake : forall x, l.make x = x) (hholds : l.Holds l.Fits) :
    Codec (n + 1) t where
  encode := l.encode
  decode := l.fields.read
  change := RecordChange l.columns
  Fits := l.Fits
  Legible := l.Legible
  plain := l.columns.all fun c => c.codec.plain
  legible := fun h x => List.forall_iff_forall_mem.mpr fun c hc =>
    c.codec.legible (List.all_eq_true.mp h c hc) (c.part x)
  readable := by
    intro x hfits hlegible
    apply Value.Readable.object
    intro m hm
    rcases List.mem_map.mp hm with ⟨c, hc, rfl⟩
    exact c.codec.readable (List.forall_iff_forall_mem.mp hfits c hc)
      (List.forall_iff_forall_mem.mp hlegible c hc)
  restores := fun hfits hlegible =>
    (read_encode (hnames ▸ hnodup) (List.forall_iff_forall_mem.mp hfits)
      (List.forall_iff_forall_mem.mp hlegible)).trans (congrArg Except.ok (hmake _))
  fits := fun hbounded hread => holds_of_read hholds hbounded hread
  ignores := fun hchange hread => ignores_change (hnames ▸ hnodup) hchange hread

end Layout
end Wire
end CodeSurvey
