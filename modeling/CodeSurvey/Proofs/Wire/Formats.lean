import CodeSurvey.Cache.Document
import CodeSurvey.Proofs.Cache.Words
import CodeSurvey.Proofs.Wire.Graph
import CodeSurvey.Proofs.Wire.Settings
import CodeSurvey.Scheduler.Task

/-!
# The wire formats

Every typed value that is written to a JSON text is read from this text again.  What is read
from any text can be written and read without a change from then on, and the order of the
members, members that belong to no field, and members that hold a default do not matter.
-/

namespace CodeSurvey

open Wire (Codec Format Layout RoundTrips)

namespace Scheduler

def Status.codec : Codec n Status :=
  Codec.named name (all.map fun s => (s.name, s)) fun s => by
    cases s with
    | _ => rfl

def Status.format : Format Status :=
  codec

theorem Status.roundTrips :
    RoundTrips encode decode format.change (fun _ => True) (fun _ => True) :=
  format.roundTrips

def TaskId.codec : Codec n TaskId :=
  Codec.wrapped .text mk text (fun _ => rfl) fun _ _ => trivial

def TaskId.format : Format TaskId :=
  codec

theorem TaskId.roundTrips :
    RoundTrips encode decode format.change (fun _ => True) (fun _ => True) :=
  format.roundTrips

end Scheduler

namespace Cache
namespace Entry

def layout (c : Codec n v) : Layout n (Entry v) (Entry v) :=
  Layout.start mk
    |>.required "key" key .text
    |>.required "value" value c
    |>.required "size" size (.below countLimit (by decide))
    |>.required "hits" hits (.below countLimit (by decide))
    |>.required "timestamp" timestamp (.integer (-timeLimit) timeLimit (by decide) (by decide))

theorem fits_layout {c : Codec n v} {e : Entry v} (h : e.Fits) (hvalue : c.Fits e.value) :
    (layout c).Fits e :=
  ⟨trivial, hvalue, h.size, h.hits, h.low, h.high⟩

def codec (c : Codec n v) : Codec (n + 1) (Entry v) :=
  (layout c).codec ["key", "value", "size", "hits", "timestamp"] rfl (by decide) (fun _ => rfl)
    fun _ hkey _ hvalue _ hsize _ hhits _ htime => ⟨hkey, hvalue, hsize, hhits, htime⟩

/-- The entry holds a free-form value that can stand in it: integers are words, every object
lists its members in the order of their keys, and no more arrays and objects stand inside of one
another than a text may have. -/
structure HoldsFree (e : Entry Json.Value) : Prop where
  fits : e.Fits
  bounded : e.value.Bounded (Json.Outline.depthLimit - 1)
  canonical : e.value.canonical = e.value

def freeFormat : Format (Entry Json.Value) :=
  codec (n := 126) .free

theorem roundTrips_free :
    RoundTrips (encode .json) (decode .json) freeFormat.change HoldsFree
      (fun e => e.value.Legible) :=
  freeFormat.roundTrips.mono (fun _ h => fits_layout h.fits ⟨h.bounded, h.canonical⟩)
    (fun _ h => ⟨trivial, h, trivial, trivial, trivial⟩)

def textFormat : Format (Entry String) :=
  codec (n := 126) .text

theorem roundTrips_text :
    RoundTrips (encode .text) (decode .text) textFormat.change Fits (fun _ => True) :=
  textFormat.roundTrips_of_plain rfl fun _ h => fits_layout h trivial

end Entry
end Cache

namespace Wire

open Cache (Entry)
open CodeSurvey.Graph (Edge Export ExportKind Import ImportKind Node)
open Scheduler (Status TaskId)

theorem formats_roundTrip [Machine] :
    RoundTrips Import.encode Import.decode Import.format.change Import.Fits (fun _ => True) ∧
    RoundTrips Export.encode Export.decode Export.format.change Export.Fits (fun _ => True) ∧
    RoundTrips ImportKind.encode ImportKind.decode ImportKind.format.change
      (fun _ => True) (fun _ => True) ∧
    RoundTrips ExportKind.encode ExportKind.decode ExportKind.format.change
      (fun _ => True) (fun _ => True) ∧
    RoundTrips Node.encode Node.decode Node.format.change Node.Fits (fun _ => True) ∧
    RoundTrips Edge.encode Edge.decode Edge.format.change Edge.Fits (fun _ => True) ∧
    RoundTrips (Entry.encode .json) (Entry.decode .json) Entry.freeFormat.change Entry.HoldsFree
      (fun e => e.value.Legible) ∧
    RoundTrips (Entry.encode .text) (Entry.decode .text) Entry.textFormat.change Entry.Fits
      (fun _ => True) ∧
    RoundTrips Status.encode Status.decode Status.format.change (fun _ => True) (fun _ => True) ∧
    RoundTrips TaskId.encode TaskId.decode TaskId.format.change (fun _ => True) (fun _ => True) ∧
    RoundTrips Config.encode Config.read Config.format.change Config.Fits (fun _ => True) :=
  ⟨Import.roundTrips, Export.roundTrips, ImportKind.roundTrips, ExportKind.roundTrips,
    Node.roundTrips, Edge.roundTrips, Entry.roundTrips_free, Entry.roundTrips_text,
    Status.roundTrips, TaskId.roundTrips, Config.roundTrips⟩

-- The members in another order, one that belongs to no field, and all defaults left out.
example : Export.decode.readText "\x7b\"type\":\"type\",\"new\":[true],\"name\":\"a\"\x7d" =
    .ok { Export.ofName "a" with kind := .typeOnly } := rfl

end Wire
end CodeSurvey
