import Yellowbox.Base.Cuts
import Yellowbox.Base.Dicts
import Yellowbox.Base.PercentEncoding

/-!
The options of a connection string: written by `_options_to_string`, read back as a
query string. Spaces are written as plus signs and nothing else is changed, so a
mapping is given back exactly when no name or value has a character that the reader
takes for something else.
-/
namespace Yellowbox.Sql.OptionStrings

open Cuts Dicts PercentEncoding

abbrev Text := List Char

abbrev Entry := Text × Text

inductive ConnectionOptions
  | text (options : Text)
  | mapping (options : Dict Text Text)

/-- `v.replace(" ", "+")` -/
def plusForSpace (v : Text) : Text := v.map fun c => if c = ' ' then '+' else c

def entryToString (entry : Entry) : Text := entry.1 ++ '=' :: plusForSpace entry.2

/-- `_options_to_string` -/
def optionsToString : Option ConnectionOptions → Text
  | none => []
  | some (.mapping options) => '?' :: ['&'].intercalate (options.entries.map entryToString)
  | some (.text options) => if options.head? = some '?' then options else '?' :: options

/-! ### The reader -/

/-- `v.replace("+", " ")` -/
def spaceForPlus (v : Text) : Text := v.map fun c => if c = '+' then ' ' else c

def decode (v : Text) : Text := unquote (spaceForPlus v)

/-- A piece without a value is no option. -/
def readOption (piece : Text) : Option Entry :=
  match (cut '=' piece).2 with
  | some (c :: value) => some (decode (cut '=' piece).1, decode (c :: value))
  | _ => none

/-- The options of a query string in their order, as `urllib.parse.parse_qsl` reads them. -/
def parseOptions (query : Text) : List Entry := (query.splitOn '&').filterMap readOption

/-- Names and values that are not empty. -/
structure Options where
  items : Dict Text Text
  filled : ∀ entry ∈ items.entries, entry.1 ≠ [] ∧ entry.2 ≠ []

namespace Options

/-- What stands behind the question mark. -/
def query (m : Options) : Text := (optionsToString (some (.mapping m.items))).drop 1

/-- What is read from the options is the mapping. -/
def GivenBack (m : Options) : Prop :=
  ∀ name, (Dict.ofPairs (parseOptions m.query)).get? name = m.items.get? name

end Options

/-- Nothing in the text means something to the reader. -/
def Literal (v : Text) : Prop := '&' ∉ v ∧ '+' ∉ v ∧ Plain v

/-- An entry that is read as it is; the value may have equality signs. -/
def Undelimited (entry : Entry) : Prop := Literal entry.1 ∧ '=' ∉ entry.1 ∧ Literal entry.2

instance : DecidablePred Literal := fun _ => inferInstanceAs (Decidable (_ ∧ _ ∧ _))

instance : DecidablePred Undelimited := fun _ => inferInstanceAs (Decidable (_ ∧ _ ∧ _))

variable {v : Text} {entry : Entry}

/-! ### Spaces and plus signs -/

theorem length_spaceForPlus (v : Text) : (spaceForPlus v).length = v.length := List.length_map _

theorem mem_plusForSpace {c : Char} (hspace : c ≠ ' ') (hplus : c ≠ '+') :
    c ∈ plusForSpace v ↔ c ∈ v := by
  unfold plusForSpace
  rw [List.mem_map]
  constructor
  · rintro ⟨c', hmem, heq⟩
    by_cases hc' : c' = ' '
    · rw [if_pos hc'] at heq
      exact absurd heq.symm hplus
    · rw [if_neg hc'] at heq
      exact heq ▸ hmem
  · intro hmem
    exact ⟨c, hmem, if_neg hspace⟩

theorem not_mem_spaceForPlus (v : Text) : '+' ∉ spaceForPlus v := by
  unfold spaceForPlus
  rw [List.mem_map]
  rintro ⟨c, -, heq⟩
  by_cases hc : c = '+'
  · rw [if_pos hc] at heq
    exact absurd heq (by decide)
  · rw [if_neg hc] at heq
    exact hc heq

theorem spaceForPlus_eq_self (h : '+' ∉ v) : spaceForPlus v = v := by
  have hid : ∀ c ∈ v, (if c = '+' then ' ' else c) = c := by
    intro c hc
    exact if_neg (ne_of_mem_of_not_mem hc h)
  exact (List.map_congr_left hid).trans (List.map_id' v)

/-- Both are read as a space. -/
theorem spaceForPlus_plusForSpace (v : Text) : spaceForPlus (plusForSpace v) = spaceForPlus v := by
  unfold spaceForPlus plusForSpace
  rw [List.map_map]
  refine List.map_congr_left fun c _ => ?_
  by_cases hspace : c = ' '
  · subst hspace
    decide
  · simp [hspace]

theorem decode_plusForSpace (v : Text) : decode (plusForSpace v) = decode v :=
  congrArg unquote (spaceForPlus_plusForSpace v)

theorem length_decode_le (v : Text) : (decode v).length ≤ v.length :=
  (length_unquote_le _).trans_eq (length_spaceForPlus v)

theorem decode_eq_self (h : Literal v) : decode v = v := by
  rw [decode, spaceForPlus_eq_self h.2.1, unquote_of_plain h.2.2]

/-- A text that keeps its length has no escape, and only its plus signs are lost. -/
theorem decode_of_length (h : v.length ≤ (decode v).length) :
    Plain (spaceForPlus v) ∧ decode v = spaceForPlus v := by
  have hplain : Plain (spaceForPlus v) := by
    by_contra hescape
    have hshorter := length_unquote_lt hescape
    rw [length_spaceForPlus] at hshorter
    exact absurd h (Nat.not_le_of_lt hshorter)
  exact ⟨hplain, unquote_of_plain hplain⟩

/-! ### One piece -/

theorem readOption_of_cut {piece value : Text} (h : (cut '=' piece).2 = some value)
    (hne : value ≠ []) :
    readOption piece = some (decode (cut '=' piece).1, decode value) := by
  unfold readOption
  rw [h]
  cases value with
  | nil => exact absurd rfl hne
  | cons c value => rfl

theorem cut_of_readOption {piece : Text} (h : readOption piece = some entry) :
    ∃ value, (cut '=' piece).2 = some value ∧
      entry = (decode (cut '=' piece).1, decode value) := by
  unfold readOption at h
  split at h
  · rename_i c value hcut
    exact ⟨c :: value, hcut, (Option.some.inj h).symm⟩
  · cases h

/-- The room that an entry takes in the query: one more for each of its delimiters. -/
def weight (entry : Entry) : ℕ := entry.1.length + entry.2.length + 2

theorem length_entryToString (entry : Entry) : (entryToString entry).length + 1 = weight entry := by
  rw [entryToString, weight, List.length_append, List.length_cons, plusForSpace, List.length_map]
  omega

/-- Reading makes nothing longer. -/
theorem weight_le_of_readOption {piece : Text} (h : readOption piece = some entry) :
    weight entry ≤ piece.length + 1 := by
  obtain ⟨value, hcut, rfl⟩ := cut_of_readOption h
  have hpiece := length_cut_add hcut
  have hname := length_decode_le (cut '=' piece).1
  have hvalue := length_decode_le value
  simp only [weight]
  omega

theorem readOption_entryToString (hname : '=' ∉ entry.1) (hvalue : entry.2 ≠ []) :
    readOption (entryToString entry) = some (decode entry.1, decode entry.2) := by
  have hcut := cut_append hname (plusForSpace entry.2)
  have hne : plusForSpace entry.2 ≠ [] := fun hnil => hvalue (List.map_eq_nil_iff.mp hnil)
  have hread := readOption_of_cut (congrArg Prod.snd hcut) hne
  rw [show (cut '=' (entry.1 ++ '=' :: plusForSpace entry.2)).1 = entry.1 from
    congrArg Prod.fst hcut, decode_plusForSpace] at hread
  exact hread

theorem length_name_of_readOption {found : Entry}
    (h : readOption (entryToString entry) = some found) : found.1.length ≤ entry.1.length := by
  obtain ⟨value, hcut, rfl⟩ := cut_of_readOption h
  exact (length_decode_le _).trans (length_cut_append_le _ _)

/-- A name with an equality sign is read up to there. -/
theorem not_mem_name_of_length {found : Entry}
    (h : readOption (entryToString entry) = some found)
    (hlength : found.1.length = entry.1.length) : '=' ∉ entry.1 := by
  intro hmem
  obtain ⟨value, hcut, rfl⟩ := cut_of_readOption h
  have hshorter := length_cut_lt hmem ('=' :: plusForSpace entry.2)
  have hname := length_decode_le (cut '=' (entryToString entry)).1
  rw [entryToString] at hname hlength
  simp only at hlength
  omega

theorem ampersand_mem_entryToString :
    '&' ∈ entryToString entry ↔ '&' ∈ entry.1 ∨ '&' ∈ entry.2 := by
  rw [entryToString, List.mem_append, List.mem_cons,
    mem_plusForSpace (by decide) (by decide)]
  simp

/-! ### The whole query -/

variable (m : Options)

theorem query_eq : m.query = ['&'].intercalate (m.items.entries.map entryToString) := rfl

theorem sum_weight_entryToString (entries : List Entry) :
    ((entries.map entryToString).map fun piece => piece.length + 1).sum =
      (entries.map weight).sum := by
  rw [List.map_map]
  exact congrArg List.sum (List.map_congr_left fun entry _ => length_entryToString entry)

/-- What the reader makes of options that mean nothing to it. -/
theorem parseOptions_of_undelimited (h : ∀ entry ∈ m.items.entries, Undelimited entry) :
    parseOptions m.query = m.items.entries := by
  rw [query_eq, parseOptions]
  by_cases hnil : m.items.entries = []
  · rw [hnil]
    rfl
  have hpieces : m.items.entries.map entryToString ≠ [] := fun h => hnil (List.map_eq_nil_iff.mp h)
  have hsplit : ∀ piece ∈ m.items.entries.map entryToString, '&' ∉ piece := by
    intro piece hpiece
    obtain ⟨entry, hentry, rfl⟩ := List.mem_map.mp hpiece
    rw [ampersand_mem_entryToString, not_or]
    exact ⟨(h entry hentry).1.1, (h entry hentry).2.2.1⟩
  have hread : ∀ entry ∈ m.items.entries, readOption (entryToString entry) = some entry := by
    intro entry hentry
    obtain ⟨hname, hequals, hvalue⟩ := h entry hentry
    rw [readOption_entryToString hequals (m.filled entry hentry).2, decode_eq_self hname,
      decode_eq_self hvalue]
  rw [List.splitOn_intercalate '&' hsplit hpieces, List.filterMap_map]
  exact (List.filterMap_congr hread).trans List.filterMap_some

variable {m}

/-- If the mapping is given back, every piece is one entry of it, and reading keeps all
of its length. -/
theorem pieces_of_givenBack (h : m.GivenBack) (hne : m.items.entries ≠ []) :
    (parseOptions m.query).Perm m.items.entries ∧
      ∀ piece ∈ m.query.splitOn '&',
        ∃ entry, readOption piece = some entry ∧ weight entry = piece.length + 1 := by
  have hpieces : m.items.entries.map entryToString ≠ [] := fun h => hne (List.map_eq_nil_iff.mp h)
  have hsub : m.items.entries ⊆ parseOptions m.query := by
    rintro ⟨name, value⟩ hmem
    have hget := Dict.mem_entries_iff.mp hmem
    rw [← h name] at hget
    exact Dict.mem_of_get?_ofPairs hget
  have hsum : ((m.query.splitOn '&').map fun piece => piece.length + 1).sum =
      (m.items.entries.map weight).sum := by
    rw [sum_splitOn, query_eq, length_intercalate hpieces, sum_weight_entryToString]
  exact perm_of_sum_le (fun _ => Nat.succ_pos _) (fun _ _ => Nat.succ_pos _)
    (fun _ _ _ => weight_le_of_readOption)
    (List.subperm_of_subset (List.Nodup.of_map _ m.items.nodup) hsub) hsum.le

/-- Then there is a piece for each entry, and it is the one that was written. -/
theorem splitOn_of_givenBack (h : m.GivenBack) (hne : m.items.entries ≠ []) :
    m.query.splitOn '&' = m.items.entries.map entryToString ∧
      ∀ entry ∈ m.items.entries, '&' ∉ entryToString entry := by
  obtain ⟨hperm, hread⟩ := pieces_of_givenBack h hne
  have hpieces : m.items.entries.map entryToString ≠ [] := fun h => hne (List.map_eq_nil_iff.mp h)
  have hlength : (m.query.splitOn '&').length = (m.items.entries.map entryToString).length := by
    rw [List.length_map, ← hperm.length_eq]
    refine (List.filterMap_length_eq_length.mpr fun piece hpiece => ?_).symm
    obtain ⟨entry, hentry, -⟩ := hread piece hpiece
    exact Option.isSome_iff_exists.mpr ⟨entry, hentry⟩
  have hsplit := not_mem_of_length_splitOn hpieces hlength
  refine ⟨List.splitOn_intercalate '&' hsplit hpieces, fun entry hentry => ?_⟩
  exact hsplit _ (List.mem_map_of_mem hentry)

/-- The name and the value that are read for an entry, which need not be its own. -/
def found (entry : Entry) : Entry := (readOption (entryToString entry)).getD ([], [])

theorem found_of_givenBack (h : m.GivenBack) (hne : m.items.entries ≠ []) :
    (m.items.entries.map found).Perm m.items.entries ∧
      ∀ entry ∈ m.items.entries,
        readOption (entryToString entry) = some (found entry) ∧
          weight (found entry) = weight entry := by
  obtain ⟨hperm, hread⟩ := pieces_of_givenBack h hne
  have hsplit := (splitOn_of_givenBack h hne).1
  have hfound : ∀ entry ∈ m.items.entries,
      readOption (entryToString entry) = some (found entry) ∧
        weight (found entry) = weight entry := by
    intro entry hentry
    have hpiece : entryToString entry ∈ m.query.splitOn '&' := by
      rw [hsplit]
      exact List.mem_map_of_mem hentry
    obtain ⟨value, hvalue, hweight⟩ := hread _ hpiece
    have heq : found entry = value := by rw [found, hvalue, Option.getD_some]
    rw [heq, hweight, length_entryToString]
    exact ⟨hvalue, rfl⟩
  refine ⟨?_, hfound⟩
  have hmap : m.items.entries.filterMap (readOption ∘ entryToString) =
      m.items.entries.map found := by
    refine (List.filterMap_congr fun entry hentry => (hfound entry hentry).1).trans ?_
    exact congrFun List.filterMap_eq_map' _
  rwa [parseOptions, hsplit, List.filterMap_map, hmap] at hperm

theorem undelimited_of_givenBack (h : m.GivenBack) :
    ∀ entry ∈ m.items.entries, Undelimited entry := by
  intro entry hentry
  have hne := List.ne_nil_of_mem hentry
  obtain ⟨hperm, hfound⟩ := found_of_givenBack h hne
  have hampersand := (splitOn_of_givenBack h hne).2
  -- names are not cut, as together they have the length of all names
  have hnames : ∀ entry ∈ m.items.entries, (found entry).1.length = entry.1.length := by
    refine eq_of_sum_le (fun entry hentry => length_name_of_readOption (hfound entry hentry).1) ?_
    have hsum := (hperm.map fun entry => entry.1.length).sum_eq
    rw [List.map_map] at hsum
    exact hsum.ge
  -- nothing is decoded but plus signs
  have hdecoded : ∀ entry ∈ m.items.entries,
      '=' ∉ entry.1 ∧ Plain (spaceForPlus entry.1) ∧ Plain (spaceForPlus entry.2) ∧
        found entry = (spaceForPlus entry.1, spaceForPlus entry.2) := by
    intro entry hentry
    obtain ⟨hread, hweight⟩ := hfound entry hentry
    have hequals := not_mem_name_of_length hread (hnames entry hentry)
    have heq : found entry = (decode entry.1, decode entry.2) := by
      rw [readOption_entryToString hequals (m.filled entry hentry).2] at hread
      exact (Option.some.inj hread).symm
    have hname := length_decode_le entry.1
    have hvalue := length_decode_le entry.2
    rw [heq] at hweight
    simp only [weight] at hweight
    have hname := decode_of_length (v := entry.1) (by omega)
    have hvalue := decode_of_length (v := entry.2) (by omega)
    exact ⟨hequals, hname.1, hvalue.1, by rw [heq, hname.2, hvalue.2]⟩
  -- what is read has no plus signs, and it is all of the mapping
  have hplus : '+' ∉ entry.1 ∧ '+' ∉ entry.2 := by
    obtain ⟨origin, horigin, heq⟩ := List.mem_map.mp (hperm.mem_iff.mpr hentry)
    rw [← heq, (hdecoded origin horigin).2.2.2]
    exact ⟨not_mem_spaceForPlus _, not_mem_spaceForPlus _⟩
  obtain ⟨hequals, hname, hvalue, -⟩ := hdecoded entry hentry
  rw [spaceForPlus_eq_self hplus.1] at hname
  rw [spaceForPlus_eq_self hplus.2] at hvalue
  have hpiece := hampersand entry hentry
  rw [ampersand_mem_entryToString, not_or] at hpiece
  exact ⟨⟨hpiece.1, hplus.1, hname⟩, hequals, hpiece.2, hplus.2, hvalue⟩

theorem givenBack_of_undelimited (h : ∀ entry ∈ m.items.entries, Undelimited entry) :
    m.GivenBack := by
  intro name
  rw [parseOptions_of_undelimited m h, Dict.ofPairs_entries]

/-- A mapping is given back exactly when all its entries are read as they are, and
among such mappings the string tells which one it is. -/
theorem givenBack_iff_undelimited (m : Options) :
    (m.GivenBack ↔ ∀ entry ∈ m.items.entries, Undelimited entry) ∧
      ∀ m' : Options, (∀ entry ∈ m.items.entries, Undelimited entry) →
        (∀ entry ∈ m'.items.entries, Undelimited entry) →
        optionsToString (some (.mapping m.items)) = optionsToString (some (.mapping m'.items)) →
        m.items.entries = m'.items.entries := by
  refine ⟨⟨undelimited_of_givenBack, givenBack_of_undelimited⟩, ?_⟩
  intro m' h h' heq
  have hquery : m.query = m'.query := congrArg (List.drop 1) heq
  rw [← parseOptions_of_undelimited m h, ← parseOptions_of_undelimited m' h', hquery]

/-- `{"driver": value}` -/
def driverOption (value : Text) (h : value ≠ []) : Options :=
  ⟨⟨[("driver".toList, value)], List.nodup_singleton _⟩, by simp [h]⟩

theorem givenBack_iff_undelimited_space :
    (driverOption "a b".toList (by decide)).GivenBack :=
  (givenBack_iff_undelimited (driverOption "a b".toList (by decide))).1.mpr (by decide +kernel)

/-- A plus sign is given back as a space, and the string of both is the same. -/
theorem plus_sign_not_givenBack :
    ¬((∀ m : Options, m.GivenBack) ∧
      ∀ m m' : Options,
        optionsToString (some (.mapping m.items)) = optionsToString (some (.mapping m'.items)) →
        ∀ name, m.items.get? name = m'.items.get? name) ∧
      ¬(driverOption "a+b".toList (by decide)).GivenBack ∧
      optionsToString (some (.mapping (driverOption "a+b".toList (by decide)).items)) =
        optionsToString (some (.mapping (driverOption "a b".toList (by decide)).items)) := by
  have hread : ¬(driverOption "a+b".toList (by decide)).GivenBack := by
    intro h
    exact absurd (h "driver".toList) (by decide +kernel)
  exact ⟨fun h => hread (h.1 _), hread, by decide +kernel⟩

end Yellowbox.Sql.OptionStrings
