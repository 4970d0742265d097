import Yellowbox.Base.TextLines
import Yellowbox.ImageBuild.OutputIndependence

/-!
The framing of a build log. Docker ends each JSON text with CR LF, and the reader
splits a chunk at every line boundary of Unicode. JSON lets a string contain some
of these boundaries as they are.
-/
namespace Yellowbox.ImageBuild

open Json

/-- A JSON object, serialised on one line. -/
structure Entry (loads : Loads) where
  text : String
  fields : List (String × Value)
  loaded : loads text = .ok (.obj fields)
  oneLine : '\r' ∉ text.toList ∧ '\n' ∉ text.toList

variable {loads : Loads}

/-- A chunk of whole lines, as docker sends it. -/
def encodeChunk (group : List (Entry loads)) : List UInt8 :=
  (String.join (group.map fun entry => terminated entry.text)).toUTF8.data.toList

def parseItem (loads : Loads) : Item → Except Exc Value
  | .undecodable => .error .unicodeDecodeError
  | .message msg => parse loads msg

/-- What comes of each thing that `_docker_build` parses, if none of them ends it. -/
def parsed (loads : Loads) (build_log : List (List UInt8)) : List (Except Exc Value) :=
  (allItems build_log).map (parseItem loads)

/-- The messages parsed from the chunks are the objects that were serialised. -/
def Decodes (groups : List (List (Entry loads))) : Prop :=
  parsed loads (groups.map encodeChunk) = groups.flatten.map fun entry => .ok (.obj entry.fields)

theorem items_encodeChunk (group : List (Entry loads)) :
    items (encodeChunk group) =
      ((group.map Entry.text).flatMap fun text => pieces [] text.toList).map .message := by
  have hlines : ∀ text ∈ group.map Entry.text, '\r' ∉ text.toList := by
    intro text htext
    obtain ⟨entry, -, rfl⟩ := List.mem_map.mp htext
    exact entry.oneLine.1
  have hjoin : (group.map fun entry => terminated entry.text) =
      (group.map Entry.text).map terminated := by
    rw [List.map_map]
    rfl
  rw [items, encodeChunk, decode_toUTF8, hjoin]
  simp only [splitlines_terminated hlines]

theorem allItems_encoded (groups : List (List (Entry loads))) :
    allItems (groups.map encodeChunk) =
      ((groups.flatten.map Entry.text).flatMap fun text => pieces [] text.toList).map .message := by
  induction groups with
  | nil => rfl
  | cons group groups ih =>
    rw [allItems] at ih ⊢
    rw [List.map_cons, List.flatMap_cons, ih, items_encodeChunk, List.flatten_cons,
      List.map_append, List.flatMap_append, List.map_append]

/-- The framing is undone exactly when no serialised object contains a line boundary. -/
theorem decodes_iff (groups : List (List (Entry loads))) :
    Decodes groups ↔
      ∀ entry ∈ groups.flatten, ∀ c ∈ entry.text.toList, isLineBoundary c = false := by
  have htexts : (∀ text ∈ groups.flatten.map Entry.text, ∀ c ∈ text.toList,
      isLineBoundary c = false) ↔
      ∀ entry ∈ groups.flatten, ∀ c ∈ entry.text.toList, isLineBoundary c = false :=
    List.forall_mem_map
  rw [← htexts, Decodes, parsed, allItems_encoded]
  constructor
  · intro heq
    have hlength := congrArg List.length heq
    simp only [List.length_map] at hlength
    apply length_flatMap_pieces.mp
    rw [List.length_map, hlength]
  · intro hnone
    rw [flatMap_pieces hnone, List.map_map, List.map_map]
    apply List.map_congr_left
    intro entry _
    simp only [Function.comp_apply, parseItem, parse, entry.loaded]

/-- A build step that prints the control character U+0085. -/
def nextLine : String := "\x7b\"stream\": \"a\u0085b\"\x7d"

def nextLineLoads : Loads := fun msg =>
  if msg = nextLine then .ok (.obj [("stream", .str "a\u0085b")]) else .error .jsonDecodeError

def nextLineEntry : Entry nextLineLoads where
  text := nextLine
  fields := [("stream", .str "a\u0085b")]
  loaded := if_pos rfl
  oneLine := by decide +kernel

/-- Its one message is read as two. -/
theorem next_line_splits : ¬∀ (loads : Loads) (groups : List (List (Entry loads))),
    Decodes groups := by
  intro h
  have hlength := congrArg List.length (h nextLineLoads [[nextLineEntry]])
  have htwo : (parsed nextLineLoads ([[nextLineEntry]].map encodeChunk)).length = 2 := by
    decide +kernel
  rw [htwo] at hlength
  cases hlength

end Yellowbox.ImageBuild
