import CodeSurvey.Graph.Node
import CodeSurvey.Proofs.Graph.Scans
import CodeSurvey.Proofs.Time.Stamp
import CodeSurvey.Proofs.Wire.Layout

/-!
# Codecs of the module graph

The layouts of imports, exports, modules and edges: their field names, and the fields that may
be left out.
-/

namespace CodeSurvey
namespace Graph

open Wire (Codec Format Layout RoundTrips)

/-!
# Imports and exports
-/

namespace ImportKind

def codec : Codec n ImportKind :=
  Codec.named name names fun k => by
    cases k with
    | _ => rfl

def format : Format ImportKind :=
  codec (n := 127)

theorem roundTrips : RoundTrips encode decode format.change (fun _ => True) (fun _ => True) :=
  format.roundTrips

end ImportKind

namespace ExportKind

def codec : Codec n ExportKind :=
  Codec.named name names fun k => by
    cases k with
    | _ => rfl

def format : Format ExportKind :=
  codec (n := 127)

theorem roundTrips : RoundTrips encode decode format.change (fun _ => True) (fun _ => True) :=
  format.roundTrips

end ExportKind

def positionCodec : Codec n Nat :=
  .below positionLimit (by decide)

theorem zero_lt_positionLimit : 0 < positionLimit := by
  decide

namespace Import

/-- The numbers are words of 32 bits. -/
structure Fits (i : Import) : Prop where
  line : i.line < positionLimit
  column : i.column < positionLimit

def layout : Layout (n + 1) Import Import :=
  Layout.start mk
    |>.required "source" source .text
    |>.optional "resolvedPath" resolved .text Codec.present_text
    |>.defaulted "specifiers" specifiers (.list .text) [] nofun
    |>.defaulted "type" kind ImportKind.codec .static trivial
    |>.defaulted "sideEffectOnly" sideEffectOnly .flag false trivial
    |>.defaulted "line" line positionCodec 0 zero_lt_positionLimit
    |>.defaulted "column" column positionCodec 0 zero_lt_positionLimit

theorem fits_layout {i : Import} (h : i.Fits) : (layout (n := n)).Fits i :=
  ⟨trivial, fun _ _ => trivial, fun _ _ => trivial, trivial, trivial, h.line, h.column⟩

def codec : Codec (n + 2) Import :=
  layout.codec
    ["source", "resolvedPath", "specifiers", "type", "sideEffectOnly", "line", "column"]
    rfl (by decide) (fun _ => rfl)
    fun _ _ _ _ _ _ _ _ _ _ _ hline _ hcolumn => fits_layout ⟨hline, hcolumn⟩

def format : Format Import :=
  codec (n := 125)

theorem roundTrips : RoundTrips encode decode format.change Fits (fun _ => True) :=
  format.roundTrips_of_plain rfl fun _ h => fits_layout h

end Import

namespace Export

structure Fits (e : Export) : Prop where
  line : e.line < positionLimit
  column : e.column < positionLimit

def layout : Layout n Export Export :=
  Layout.start mk
    |>.required "name" name .text
    |>.defaulted "type" kind ExportKind.codec .named trivial
    |>.optional "source" source .text Codec.present_text
    |>.optional "originalName" localName .text Codec.present_text
    |>.defaulted "line" line positionCodec 0 zero_lt_positionLimit
    |>.defaulted "column" column positionCodec 0 zero_lt_positionLimit

theorem fits_layout {e : Export} (h : e.Fits) : (layout (n := n)).Fits e :=
  ⟨trivial, trivial, fun _ _ => trivial, fun _ _ => trivial, h.line, h.column⟩

def codec : Codec (n + 1) Export :=
  layout.codec
    ["name", "type", "source", "originalName", "line", "column"]
    rfl (by decide) (fun _ => rfl)
    fun _ _ _ _ _ _ _ _ _ hline _ hcolumn => fits_layout ⟨hline, hcolumn⟩

def format : Format Export :=
  codec (n := 126)

theorem roundTrips : RoundTrips encode decode format.change Fits (fun _ => True) :=
  format.roundTrips_of_plain rfl fun _ h => fits_layout h

end Export

/-!
# Modules and edges
-/

namespace PathSet

theorem ofList_toList (s : PathSet) : ofList s.toList = s :=
  eq_of_mem_iff fun _ => mem_ofList

def codec : Codec (n + 1) PathSet :=
  Codec.wrapped (.list .text) ofList toList ofList_toList fun _ _ _ _ => trivial

end PathSet

namespace Node

def instantCodec : Codec n Time.Instant where
  encode := encodeInstant
  decode := decodeInstant
  change := Wire.unchanging
  Fits := Time.Instant.Printable
  Legible := fun _ => True
  plain := true
  legible := fun _ _ => trivial
  readable := fun _ _ => .text
  restores := by
    intro t hprintable _
    apply bind_eq_ok_iff.mpr
    refine ⟨Time.Stamp.zulu t, rfl, ?_⟩
    rw [Time.Stamp.ofText?_zulu hprintable]
    rfl
  fits := by
    intro o t _ hread
    rcases bind_eq_ok_iff.mp hread with ⟨s, _, hread⟩
    cases hstamp : Time.Stamp.ofText? s with
    | none =>
        rw [hstamp] at hread
        cases hread
    | some t' =>
        rw [hstamp] at hread
        cases hread
        exact Time.Stamp.printable_of_ofText? hstamp
  ignores := nofun

theorem present_instant : (instantCodec (n := n)).Present :=
  fun _ => rfl

structure Fits (m : Node) : Prop where
  imports : forall i, i ∈ m.imports -> i.Fits
  exports : forall e, e ∈ m.exports -> e.Fits
  analyzedAt : forall t, m.analyzedAt = some t -> t.Printable

def layout : Layout (n + 3) Node Node :=
  Layout.start mk
    |>.required "path" path .text
    |>.required "imports" imports (.list Import.codec)
    |>.required "exports" exports (.list Export.codec)
    |>.required "dependencies" dependencies PathSet.codec
    |>.required "dependents" dependents PathSet.codec
    |>.required "analyzed" analyzed .flag
    |>.optional "analyzedAt" analyzedAt instantCodec present_instant

theorem fits_layout {m : Node} (h : m.Fits) : (layout (n := n)).Fits m :=
  ⟨trivial, fun i hi => Import.fits_layout (h.imports i hi),
    fun e he => Export.fits_layout (h.exports e he), fun _ _ => trivial, fun _ _ => trivial,
    trivial, h.analyzedAt⟩

def codec : Codec (n + 4) Node :=
  layout.codec
    ["path", "imports", "exports", "dependencies", "dependents", "analyzed", "analyzedAt"]
    rfl (by decide) (fun _ => rfl)
    fun _ hpath _ himports _ hexports _ hdependencies _ hdependents _ hanalyzed _ hinstant =>
      ⟨hpath, himports, hexports, hdependencies, hdependents, hanalyzed, hinstant⟩

def format : Format Node :=
  codec (n := 123)

theorem roundTrips : RoundTrips encode decode format.change Fits (fun _ => True) :=
  format.roundTrips_of_plain rfl fun _ h => fits_layout h

end Node

namespace Edge

def Fits (e : Edge) : Prop :=
  e.via.Fits

def layout : Layout (n + 2) Edge Edge :=
  Layout.start mk
    |>.required "from" source .text
    |>.required "to" target .text
    |>.required "import" via Import.codec

theorem fits_layout {e : Edge} (h : e.Fits) : (layout (n := n)).Fits e :=
  ⟨trivial, trivial, Import.fits_layout h⟩

def codec : Codec (n + 3) Edge :=
  layout.codec ["from", "to", "import"] rfl (by decide) (fun _ => rfl)
    fun _ hsource _ htarget _ hvia => ⟨hsource, htarget, hvia⟩

def format : Format Edge :=
  codec (n := 124)

theorem roundTrips : RoundTrips encode decode format.change Fits (fun _ => True) :=
  format.roundTrips_of_plain rfl fun _ h => fits_layout h

end Edge
end Graph
end CodeSurvey
