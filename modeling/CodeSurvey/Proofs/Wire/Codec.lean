import CodeSurvey.Proofs.Json.Accepted
import CodeSurvey.Proofs.Json.Rereading
import CodeSurvey.Proofs.Record.Reading
import Mathlib.Logic.Relation

/-!
# Codecs

A codec is a writer and a reader that belong together, with the reasons for it: what is written
for a value is read as this value, and what may be changed in a text without a change of its
meaning is ignored by the reader.  Codecs of parts make codecs of the whole.
-/

namespace CodeSurvey
namespace Wire

open Json (Outline Value)

/-- Which outlines may take the place of which. -/
abbrev Change := Outline -> Outline -> Prop

/-- A text without fields: nothing in it may change. -/
def unchanging : Change :=
  fun _ _ => False

/-- One item of an array changes. -/
inductive ItemChange (change : Change) : Change where
  | item (h : change o o') :
      ItemChange change (.array (before ++ o :: after) ending)
        (.array (before ++ o' :: after) ending)

/-!
# Round trips
-/

/-- A text that shows the outline of another one after some changes. -/
def Edited (change : Change) (s s' : String) : Prop :=
  exists o o', Outline.ofText s = (o, false) ∧ Outline.ofText s' = (o', false) ∧
    Relation.ReflTransGen change o o'

/-- Read a text and write what was read. -/
def recode (encode : a -> Value) (decode : Json.Reader a) (s : String) : Except Fault String :=
  (decode.readText s).map fun x => (encode x).compact

/-- The text of a value is read as this value; what was read from any text is written as a text
that does not change any more; and edits of a text do not change what is read.  `Fits` holds of
the values that the program can hold, and `Legible` of those whose floating-point numbers are
read as they are written. -/
structure RoundTrips (encode : a -> Value) (decode : Json.Reader a) (change : Change)
    (Fits Legible : a -> Prop) : Prop where
  restores : forall x, Fits x -> Legible x -> decode.readText (encode x).compact = .ok x
  settles : forall s x, decode.readText s = .ok x -> Legible x ->
    recode encode decode (encode x).compact = .ok (encode x).compact
  ignores : forall s s' x, Edited change s s' -> decode.readText s = .ok x ->
    decode.readText s' = .ok x

theorem RoundTrips.mono {encode : a -> Value} {decode : Json.Reader a} {change : Change}
    {Fits Legible Fits' Legible' : a -> Prop} (h : RoundTrips encode decode change Fits Legible)
    (hfits : forall x, Fits' x -> Fits x) (hlegible : forall x, Legible' x -> Legible x) :
    RoundTrips encode decode change Fits' Legible' where
  restores := fun x hx hx' => h.restores x (hfits x hx) (hlegible x hx')
  settles := fun s x hread hx => h.settles s x hread (hlegible x hx)
  ignores := h.ignores

/-- A codec of values whose texts stand inside of other texts, with `n` levels of arrays and
objects left. -/
structure Codec (n : Nat) (a : Type) where
  encode : a -> Value
  decode : Json.Reader a
  change : Change
  Fits : a -> Prop
  Legible : a -> Prop
  /-- There are no floating-point numbers in the values. -/
  plain : Bool
  legible : plain = true -> forall x, Legible x
  readable : forall {x}, Fits x -> Legible x -> (encode x).Readable n
  restores : forall {x}, Fits x -> Legible x -> decode (.ofValue (encode x)) = .ok x
  fits : forall {o x}, o.Bounded n -> decode o = .ok x -> Fits x
  ignores : forall {o o' x}, change o o' -> decode o = .ok x -> decode o' = .ok x

/-- No value is written as `null`. -/
def Codec.Present (c : Codec n a) : Prop :=
  forall x, Record.Source.isAbsent (Outline.ofValue (c.encode x)) = .ok false

/-- A codec of values whose texts stand alone. -/
abbrev Format (a : Type) :=
  Codec Outline.depthLimit a

namespace Codec

theorem ignores_all (c : Codec n a) {o o' : Outline} (h : Relation.ReflTransGen c.change o o')
    {x : a} (hread : c.decode o = .ok x) : c.decode o' = .ok x := by
  induction h with
  | refl => exact hread
  | tail _ hstep ih => exact c.ignores hstep ih

theorem roundTrips (c : Format a) :
    RoundTrips c.encode c.decode c.change c.Fits c.Legible := by
  have hrestores : forall x, c.Fits x -> c.Legible x ->
      c.decode.readText (c.encode x).compact = .ok x := fun x hfits hlegible =>
    (Json.Reader.readText_compact (c.readable hfits hlegible)).mpr (c.restores hfits hlegible)
  constructor
  case restores => exact hrestores
  case settles =>
    intro s x hread hlegible
    rcases Json.Reader.readText_eq_ok_iff.mp hread with ⟨o, htext, ho⟩
    have hbounded : o.Bounded Outline.depthLimit := by
      have hall := Outline.bounded_ofText s
      rw [htext] at hall
      exact hall
    unfold recode
    rw [hrestores x (c.fits hbounded ho) hlegible]
    rfl
  case ignores =>
    rintro s s' x ⟨o, o', htext, htext', hchanges⟩ hread
    rcases Json.Reader.readText_eq_ok_iff.mp hread with ⟨_, hsame, ho⟩
    cases htext.symm.trans hsame
    exact Json.Reader.readText_eq_ok_iff.mpr ⟨o', htext', c.ignores_all hchanges ho⟩

theorem roundTrips_of_plain (c : Format a) (hplain : c.plain = true) {Fits : a -> Prop}
    (hfits : forall x, Fits x -> c.Fits x) :
    RoundTrips c.encode c.decode c.change Fits (fun _ => True) :=
  c.roundTrips.mono hfits fun x _ => c.legible hplain x

/-!
# Texts, flags and numbers
-/

def text : Codec n String where
  encode := .text
  decode := Json.Reader.text
  change := unchanging
  Fits := fun _ => True
  Legible := fun _ => True
  plain := true
  legible := fun _ _ => trivial
  readable := fun _ _ => .text
  restores := fun _ _ => rfl
  fits := fun _ _ => trivial
  ignores := nofun

theorem present_text : (text (n := n)).Present :=
  fun _ => rfl

def flag : Codec n Bool where
  encode := .flag
  decode := Json.Reader.flag
  change := unchanging
  Fits := fun _ => True
  Legible := fun _ => True
  plain := true
  legible := fun _ _ => trivial
  readable := fun _ _ => .flag
  restores := fun _ _ => rfl
  fits := fun _ _ => trivial
  ignores := nofun

/-- Natural numbers below a bound of at most 64 bits. -/
def below (bound : Nat) (hbound : bound ≤ Nat.pow 2 64) : Codec n Nat where
  encode := .nat
  decode := .below bound
  change := unchanging
  Fits := fun k => k < bound
  Legible := fun _ => True
  plain := true
  legible := fun _ _ => trivial
  readable := by
    intro k hk _
    have hlimit : (k : Int) < (Nat.pow 2 64 : Nat) :=
      Int.ofNat_lt.mpr (Nat.lt_of_lt_of_le hk hbound)
    exact .number (Json.Number.legible_integer (by omega) hlimit)
  restores := fun hk _ => Json.Reader.below_natural hk
  fits := fun _ hread => Record.Reader.lt_of_below hread
  ignores := nofun

/-- Integers between two bounds of at most 64 bits. -/
def integer (low high : Int) (hlow : -(Nat.pow 2 63 : Int) ≤ low)
    (hhigh : high ≤ (Nat.pow 2 64 : Nat)) : Codec n Int where
  encode := .int
  decode := Json.Reader.integer low high
  change := unchanging
  Fits := fun i => low ≤ i ∧ i < high
  Legible := fun _ => True
  plain := true
  legible := fun _ _ => trivial
  readable := fun hi _ => .number
    (Json.Number.legible_integer (Int.le_trans hlow hi.1) (Int.lt_of_lt_of_le hi.2 hhigh))
  restores := fun hi _ => Json.Reader.integer_int hi.1 hi.2
  fits := fun _ hread => Json.Reader.bounds_of_integer hread
  ignores := nofun

/-- Names out of a list. -/
def named (name : a -> String) (names : List (String × a))
    (h : forall x, names.lookup (name x) = some x) : Codec n a where
  encode := fun x => .text (name x)
  decode := Json.Reader.oneOf names
  change := unchanging
  Fits := fun _ => True
  Legible := fun _ => True
  plain := true
  legible := fun _ _ => trivial
  readable := fun _ _ => .text
  restores := by
    intro x _ _
    show Json.Reader.oneOf.named names (name x) = .ok x
    unfold Json.Reader.oneOf.named
    rw [h x]
  fits := fun _ _ => trivial
  ignores := nofun

/-- Values that are written as something else. -/
def wrapped (c : Codec n a) (wrap : a -> b) (unwrap : b -> a) (h : forall x, wrap (unwrap x) = x)
    (hfits : forall y, c.Fits y -> c.Fits (unwrap (wrap y))) : Codec n b where
  encode := fun x => c.encode (unwrap x)
  decode := fun o => (c.decode o).map wrap
  change := c.change
  Fits := fun x => c.Fits (unwrap x)
  Legible := fun x => c.Legible (unwrap x)
  plain := c.plain
  legible := fun h x => c.legible h (unwrap x)
  readable := c.readable
  restores := fun hfits hlegible => map_eq_ok_iff.mpr ⟨_, c.restores hfits hlegible, h _⟩
  fits := by
    intro o x hbounded hread
    rcases map_eq_ok_iff.mp hread with ⟨y, hy, rfl⟩
    exact hfits y (c.fits hbounded hy)
  ignores := by
    intro o o' x hchange hread
    rcases map_eq_ok_iff.mp hread with ⟨y, hy, heq⟩
    exact map_eq_ok_iff.mpr ⟨y, c.ignores hchange hy, heq⟩

/-!
# Values of any shape
-/

def free : Codec n Value where
  encode := id
  decode := Outline.value?
  change := Outline.Reordered
  Fits := fun v => v.Bounded n ∧ v.canonical = v
  Legible := Value.Legible
  plain := false
  legible := nofun
  readable := fun hfits hlegible => hfits.1.readable hlegible
  restores := fun hfits _ => (Outline.value?_ofValue _).trans (congrArg Except.ok hfits.2)
  fits := fun hbounded hread => hbounded.value? hread
  ignores := fun h hread => h.value? hread

/-!
# Options and lists
-/

/-- Values that may be absent; those that are there are not written as `null`. -/
def optional (c : Codec n a) (hpresent : c.Present) : Codec n (Option a) where
  encode := Value.option c.encode
  decode := Record.Reader.optional c.decode
  change := unchanging
  Fits := fun x => forall y, x = some y -> c.Fits y
  Legible := fun x => forall y, x = some y -> c.Legible y
  plain := c.plain
  legible := fun h _ y _ => c.legible h y
  readable := by
    intro x hfits hlegible
    cases x with
    | none => exact .null
    | some y => exact c.readable (hfits y rfl) (hlegible y rfl)
  restores := by
    intro x hfits hlegible
    cases x with
    | none => rfl
    | some y =>
        have hread := c.restores (hfits y rfl) (hlegible y rfl)
        exact bind_eq_ok_iff.mpr ⟨false, hpresent y, map_eq_ok_iff.mpr ⟨y, hread, rfl⟩⟩
  fits := by
    rintro o _ hbounded hread y rfl
    rcases bind_eq_ok_iff.mp hread with ⟨absent, _, hread⟩
    cases absent with
    | true => cases hread
    | false =>
        rcases map_eq_ok_iff.mp hread with ⟨z, hz, ⟨⟩⟩
        exact c.fits hbounded hz
  ignores := nofun

def list (c : Codec n a) : Codec (n + 1) (List a) where
  encode := Value.list c.encode
  decode := Json.Reader.list c.decode
  change := ItemChange c.change
  Fits := fun xs => forall x, x ∈ xs -> c.Fits x
  Legible := fun xs => forall x, x ∈ xs -> c.Legible x
  plain := c.plain
  legible := fun h _ x _ => c.legible h x
  readable := by
    intro xs hfits hlegible
    apply Value.Readable.array
    intro v hv
    rcases List.mem_map.mp hv with ⟨x, hx, rfl⟩
    exact c.readable (hfits x hx) (hlegible x hx)
  restores := by
    intro xs hfits hlegible
    show Json.Reader.list c.decode (.array (Outline.ofItems (xs.map c.encode)) .closed) = .ok xs
    rw [Json.Outline.ofItems_eq_map, Json.Reader.list_eq_ok_iff, List.map_map,
      List.forall₂_map_left_iff]
    exact ⟨List.forall₂_same.mpr fun x hx => c.restores (hfits x hx) (hlegible x hx), rfl⟩
  fits := by
    intro o xs hbounded hread x hx
    cases hbounded with
    | array hitems =>
        rcases exists_of_forall₂ (Json.Reader.list_eq_ok_iff.mp hread).1 hx with ⟨o, ho, hx⟩
        exact c.fits (hitems o ho) hx
    | _ => cases hread
  ignores := by
    rintro _ _ xs ⟨hchange⟩ hread
    rcases Json.Reader.list_eq_ok_iff.mp hread with ⟨hitems, hending⟩
    exact Json.Reader.list_eq_ok_iff.mpr
      ⟨forall₂_replace (fun x hx => c.ignores hchange hx) hitems, hending⟩

end Codec
end Wire
end CodeSurvey
