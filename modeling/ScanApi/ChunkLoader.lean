import ScanApi.Cyclops

/-!
Webpack's chunk loader, as a build writes it, and what the parser reads of it: for
every chunk that has a name and a hash, the file that the loader would ask for
(`chunkFiles_loader`).
-/
namespace ScanApi.ChunkLoader
open ScanApi.Raising ScanApi.Python ScanApi.Regex ScanApi.Unicode ScanApi.Partition ScanApi.Cyclops
open ScanApi.Sber (groupText)

/-! ### The loader as a build writes it -/

/-- `id:"value"`. -/
def entryText (e : String × String) : List Char := e.1.toList ++ ":\"".toList ++ e.2.toList ++ "\"".toList

/-- `{id:"value",...}`. -/
def objectText (entries : List (String × String)) : List Char :=
  '\x7b' :: ([','].intercalate (entries.map entryText) ++ ['\x7d'])

/-- `n.u=e=>"assets/js/"+(({...})[e]||e)+"."+({...})[e]+".js"`. -/
def loaderText (names hashes : List (String × String)) : List Char :=
  namePrefix ++ objectText names ++ midMarker ++ objectText hashes ++ endMarker

/-- The value of a property; later ones win. -/
def property (entries : List (String × String)) (id : String) : Option String := (Dict.ofEntries entries).get? id

/-- What the loader returns for a chunk. -/
def loaderFile (names hashes : List (String × String)) (id : String) : String :=
  "assets/js/" ++ (property names id).getD id ++ "." ++ (property hashes id).getD "undefined" ++ ".js"

/-- A decimal id with a name of letters and digits. -/
structure Formed (e : String × String) : Prop where
  id : e.1 ≠ "" ∧ ∀ c ∈ e.1.toList, c.isDigit = true
  value : e.2 ≠ "" ∧ ∀ c ∈ e.2.toList, alphanumeric c = true

-- `decide` would try the characters one after another, not those of the list.
theorem formed_of_all {e : String × String} (id : e.1 ≠ "" ∧ e.1.toList.all Char.isDigit = true)
    (value : e.2 ≠ "" ∧ e.2.toList.all alphanumeric = true) : Formed e :=
  ⟨⟨id.1, List.all_eq_true.mp id.2⟩, ⟨value.1, List.all_eq_true.mp value.2⟩⟩

/-! ### Finding -/

/-- A search goes on behind what no match begins in. -/
theorem find_skip {part : List Char} : ∀ {front rest : List Char},
    (∀ i < front.length, ¬ part <+: (front ++ rest).drop i) →
      find part (front ++ rest) = (find part rest).map (· + front.length) := by
  intro front
  induction front with
  | nil => intro rest _; cases rest <;> simp
  | cons d front ih =>
    intro rest earlier
    have here := earlier 0 (by simp)
    have later := @ih rest (fun i bound => earlier (i + 1) (by simpa using bound))
    rw [List.drop_zero, List.cons_append, ← List.isPrefixOf_iff_prefix] at here
    rw [List.cons_append, find, if_neg here, later, Option.map_map]
    rfl

theorem find_here {part : List Char} (nonempty : part ≠ []) (rest : List Char) : find part (part ++ rest) = some 0 := by
  obtain ⟨c, tail, rfl⟩ := List.exists_cons_of_ne_nil nonempty
  have begins : (c :: tail).isPrefixOf (c :: (tail ++ rest)) = true :=
    List.isPrefixOf_iff_prefix.mpr (List.prefix_append (c :: tail) rest)
  rw [List.cons_append, find, if_pos begins]

/-- The first character of what is searched for does not occur before it. -/
theorem find_append {part front rest : List Char} {c : Char} (begins : part.head? = some c) (absent : c ∉ front) :
    find part (front ++ (part ++ rest)) = some front.length := by
  obtain ⟨tail, rfl⟩ : ∃ tail, part = c :: tail := by
    cases part with
    | nil => cases begins
    | cons d tail => exact ⟨tail, by rw [Option.some.inj begins]⟩
  have earlier : ∀ i < front.length, ¬ c :: tail <+: (front ++ (c :: tail ++ rest)).drop i := by
    intro i bound start
    rw [List.drop_append_of_le_length bound.le, List.drop_eq_getElem_cons bound] at start
    obtain ⟨same, -⟩ := List.cons_prefix_cons.mp start
    exact absent (same ▸ List.getElem_mem bound)
  rw [find_skip earlier, find_here (List.cons_ne_nil _ _)]
  simp

/-! ### Scanning an object -/

section
variable {unicode : CharTables}

theorem chunkEntry_free : (chunkEntry unicode).anchorFree = true := rfl

/-- What an entry is, as the pattern takes it apart. -/
theorem spells_chunkEntry {way : Way} : Spells (chunkEntry unicode) way ↔ ∃ digits name,
    (digits ≠ [] ∧ ∀ c ∈ digits, (unicode.decimal c).isSome = true) ∧ (name ≠ [] ∧ ∀ c ∈ name, alphanumeric c = true) ∧
      way = ⟨digits ++ (":\"".toList ++ (name ++ "\"".toList)), [(2, name), (1, digits)]⟩ := by
  constructor
  · rintro ⟨_, _, ⟨_, starts, rfl⟩, ⟨_, _, colon, ⟨_, _, ⟨_, names, rfl⟩, quote, rfl⟩, rfl⟩, rfl⟩
    obtain ⟨digits, nonempty, all, rfl⟩ := spells_plus.mp starts
    obtain ⟨name, nonempty', all', rfl⟩ := spells_plus.mp names
    obtain rfl := spells_literal.mp colon
    obtain rfl := spells_literal.mp quote
    exact ⟨digits, name, ⟨nonempty, all⟩, ⟨nonempty', all'⟩, rfl⟩
  · rintro ⟨digits, name, ⟨nonempty, all⟩, ⟨nonempty', all'⟩, rfl⟩
    refine ⟨⟨digits, [(1, digits)]⟩, ⟨":\"".toList ++ (name ++ "\"".toList), [(2, name)]⟩,
      ⟨⟨digits, []⟩, spells_plus.mpr ⟨digits, nonempty, all, rfl⟩, rfl⟩, ?_, rfl⟩
    refine ⟨⟨":\"".toList, []⟩, ⟨name ++ "\"".toList, [(2, name)]⟩, spells_literal.mpr rfl, ?_, rfl⟩
    exact ⟨⟨name, [(2, name)]⟩, ⟨"\"".toList, []⟩, ⟨⟨name, []⟩, spells_plus.mpr ⟨name, nonempty', all', rfl⟩, rfl⟩,
      spells_literal.mpr rfl, rfl⟩

theorem decimal_digit {c : Char} (digit : c.isDigit = true) : (unicode.decimal c).isSome = true := by
  have range : 48 ≤ c.toNat ∧ c.toNat < 58 := by
    simp only [Char.isDigit, Bool.and_eq_true, decide_eq_true_eq] at digit
    have low : 48 ≤ c.val.toNat := UInt32.le_iff_toNat_le.mp digit.1
    have high : c.val.toNat ≤ 57 := UInt32.le_iff_toNat_le.mp digit.2
    exact ⟨low, Nat.lt_succ_of_le high⟩
  rw [unicode.decimal_ascii c (by omega), if_pos range]
  rfl

theorem decimal_other {c : Char} (ascii : c.toNat < 128) (other : ¬ (48 ≤ c.toNat ∧ c.toNat < 58)) :
    (unicode.decimal c).isSome = false := by
  rw [unicode.decimal_ascii c ascii, if_neg other]
  rfl

/-- How an entry is matched: the id and the value up to the closing quote. -/
def entryWay (e : String × String) : Way where
  taken := entryText e
  groups := [(2, e.2.toList), (1, e.1.toList)]

theorem run_unique {p : Char → Bool} {a b x y : List Char} {c d : Char} (inside : ∀ c ∈ a, p c = true)
    (inside' : ∀ c ∈ b, p c = true) (stop : p c = false) (stop' : p d = false) (start : a ++ c :: x <+: b ++ d :: y) :
    a = b ∧ x <+: y := by
  obtain ⟨z, whole⟩ := start
  have ends : (c :: (x ++ z)).head?.all (!p ·) = true := by simp [stop]
  have ends' : (d :: y).head?.all (!p ·) = true := by simp [stop']
  have split : a ++ c :: (x ++ z) = b ++ d :: y := by simpa using whole
  have front := congrArg (List.takeWhile p) split
  rw [(span_append inside ends).1, (span_append inside' ends').1] at front
  subst front
  obtain ⟨-, rest⟩ := List.cons.inj (List.append_cancel_left split)
  exact ⟨rfl, z, rest⟩

theorem matchAt_entry {e : String × String} (formed : Formed e) (rest : List Char) :
    matchAt (chunkEntry unicode) none (entryText e ++ rest) = some (entryWay e) := by
  have digits : ∀ c ∈ e.1.toList, (unicode.decimal c).isSome = true := fun c member => decimal_digit (formed.id.2 c member)
  have spelled : Spells (chunkEntry unicode) (entryWay e) := by
    refine spells_chunkEntry.mpr ⟨e.1.toList, e.2.toList, ⟨?_, digits⟩, ⟨?_, formed.value.2⟩, ?_⟩
    · simpa using formed.id.1
    · simpa using formed.value.1
    · simp [entryWay, entryText]
  refine matchAt_of_unique ((mem_ways chunkEntry_free).mpr ⟨spelled, List.prefix_append _ _⟩) (fun other found => ?_)
  obtain ⟨way, start⟩ := (mem_ways chunkEntry_free).mp found
  obtain ⟨ds, name, ⟨-, all⟩, ⟨-, all'⟩, rfl⟩ := spells_chunkEntry.mp way
  have colon : (unicode.decimal ':').isSome = false := decimal_other (by decide) (by decide)
  have quote : alphanumeric '"' = false := by decide
  simp only [entryText, List.append_assoc] at start
  obtain ⟨rfl, later⟩ := run_unique all digits colon colon start
  obtain ⟨rfl, -⟩ := run_unique all' formed.value.2 quote quote ((List.prefix_cons_inj '"').mp later)
  simp [entryWay, entryText]

/-- No entry begins at a character that is no digit. -/
theorem matchAt_other {c : Char} (other : (unicode.decimal c).isSome = false) (rest : List Char) :
    matchAt (chunkEntry unicode) none (c :: rest) = none := by
  refine matchAt_eq_none (fun way found => ?_)
  obtain ⟨spelled, start⟩ := (mem_ways chunkEntry_free).mp found
  obtain ⟨digits, name, ⟨nonempty, all⟩, -, rfl⟩ := spells_chunkEntry.mp spelled
  obtain ⟨d, more, rfl⟩ := List.exists_cons_of_ne_nil nonempty
  obtain ⟨rfl, -⟩ := List.cons_prefix_cons.mp start
  rw [all d List.mem_cons_self] at other
  cases other

theorem finditer_entries {entries : List (String × String)} (formed : ∀ e ∈ entries, Formed e) :
    finditer (chunkEntry unicode) ([','].intercalate (entries.map entryText) ++ ['\x7d']) = entries.map entryWay := by
  have close : finditer (chunkEntry unicode) ['\x7d'] = [] := by
    rw [finditer_none chunkEntry_free (matchAt_other (decimal_other (by decide) (by decide)) [])]
    rfl
  have one : ∀ e, Formed e → ∀ rest, finditer (chunkEntry unicode) (entryText e ++ rest) =
      entryWay e :: finditer (chunkEntry unicode) rest := by
    intro e entry rest
    exact finditer_found chunkEntry_free (matchAt_entry entry rest) (by simp [entryWay, entryText]) rfl
  induction entries with
  | nil => exact close
  | cons e more ih =>
    obtain ⟨first, others⟩ := List.forall_mem_cons.mp formed
    cases more with
    | nil =>
      have single : [','].intercalate ([e].map entryText) ++ ['\x7d'] = entryText e ++ ['\x7d'] := by simp
      rw [single, one e first, close]
      rfl
    | cons e' more =>
      have split : [','].intercalate ((e :: e' :: more).map entryText) ++ ['\x7d'] =
          entryText e ++ ',' :: ([','].intercalate ((e' :: more).map entryText) ++ ['\x7d']) := by
        simp
      have comma := @matchAt_other unicode _ (decimal_other (c := ',') (by decide) (by decide))
        ([','].intercalate ((e' :: more).map entryText) ++ ['\x7d'])
      rw [split, one e first, finditer_none chunkEntry_free comma, ih others]
      rfl

/-- Reading an object back. -/
theorem lookupObject_objectText {entries : List (String × String)} (formed : ∀ e ∈ entries, Formed e) :
    lookupObject unicode (objectText entries) = Dict.ofEntries entries := by
  have start := @matchAt_other unicode _ (decimal_other (c := '\x7b') (by decide) (by decide))
    ([','].intercalate (entries.map entryText) ++ ['\x7d'])
  have values : ∀ e, (groupText (entryWay e) 1, groupText (entryWay e) 2) = e := by
    intro e
    simp [groupText, entryWay, Way.group]
  rw [lookupObject, objectText, finditer_none chunkEntry_free start, finditer_entries formed, List.map_map]
  congr 1
  exact (List.map_congr_left (fun e _ => values e)).trans (List.map_id _)

end

/-! ### The parser and the loader -/

theorem not_mem_objectText {entries : List (String × String)} (formed : ∀ e ∈ entries, Formed e) : ')' ∉ objectText entries := by
  have inEntry : ∀ e, Formed e → ')' ∉ entryText e := by
    intro e entry inside
    rw [entryText] at inside
    have digits : ')' ∉ e.1.toList := fun member => absurd (entry.id.2 _ member) (by decide)
    have name : ')' ∉ e.2.toList := fun member => absurd (entry.value.2 _ member) (by decide)
    simp [digits, name] at inside
  have inList : ∀ {entries : List (String × String)}, (∀ e ∈ entries, Formed e) →
      ')' ∉ [','].intercalate (entries.map entryText) := by
    intro entries formed
    induction entries with
    | nil => simp
    | cons e rest ih =>
      obtain ⟨first, others⟩ := List.forall_mem_cons.mp formed
      cases rest with
      | nil => simpa using inEntry e first
      | cons e' rest => simpa using ⟨inEntry e first, by simpa using ih others⟩
  simp [objectText, inList formed]

theorem not_prefix_of_mismatch {part rest : List Char} : ∀ {front : List Char},
    (part.zip front).any (fun pair => pair.1 ≠ pair.2) = true → ¬ part <+: front ++ rest := by
  induction part with
  | nil => intro front differs; cases differs
  | cons c part ih =>
    intro front differs start
    cases front with
    | nil => cases differs
    | cons d front =>
      obtain ⟨rfl, later⟩ := List.cons_prefix_cons.mp start
      exact ih (by simpa using differs) later

theorem find_endMarker {hashes : List (String × String)} (formed : ∀ e ∈ hashes, Formed e) (rest : List Char) :
    find endMarker (midMarker ++ (objectText hashes ++ (endMarker ++ rest))) =
      some ((objectText hashes).length + midMarker.length) := by
  have mismatches : ∀ i < midMarker.length,
      (endMarker.zip (midMarker.drop i)).any (fun pair => pair.1 ≠ pair.2) = true := by decide
  have earlier : ∀ i < midMarker.length,
      ¬ endMarker <+: (midMarker ++ (objectText hashes ++ (endMarker ++ rest))).drop i := by
    intro i bound
    rw [List.drop_append_of_le_length bound.le]
    exact not_prefix_of_mismatch (mismatches i bound)
  rw [find_skip earlier, find_append rfl (not_mem_objectText formed)]
  rfl

section
variable {names hashes : List (String × String)} {before after : List Char}

theorem segmentObjects_loader (namesFormed : ∀ e ∈ names, Formed e) (hashesFormed : ∀ e ∈ hashes, Formed e)
    (rest : List Char) : segmentObjects (loaderText names hashes ++ rest) = .ok (objectText names, objectText hashes) := by
  have shape : loaderText names hashes ++ rest =
      (namePrefix ++ objectText names) ++ (midMarker ++ (objectText hashes ++ (endMarker ++ rest))) := by
    simp only [loaderText, List.append_assoc]
  have noClose : ')' ∉ namePrefix ++ objectText names := by
    rw [List.mem_append, not_or]
    exact ⟨by decide, not_mem_objectText namesFormed⟩
  have mid := @find_append midMarker _ (objectText hashes ++ (endMarker ++ rest)) _ rfl noClose
  have isPrefix : namePrefix.isPrefixOf (loaderText names hashes ++ rest) = true := by
    rw [List.isPrefixOf_iff_prefix, shape, List.append_assoc]
    exact List.prefix_append _ _
  rw [shape] at isPrefix ⊢
  simp only [segmentObjects, mid, isPrefix, List.drop_left, find_endMarker hashesFormed]
  congr 2
  · rw [List.take_left, List.drop_left]
  · rw [List.take_length_add_append, List.drop_length_add_append, Nat.add_comm, List.take_length_add_append, List.take_left,
      List.drop_left]

/-- The parser finds the two objects of a loader. -/
theorem loaderObjects_loader (namesFormed : ∀ e ∈ names, Formed e) (hashesFormed : ∀ e ∈ hashes, Formed e)
    (first : ∀ i < before.length, ¬ loaderStart <+: (before ++ (loaderText names hashes ++ after)).drop i)
    (short : (loaderText names hashes).length ≤ 20000) :
    loaderObjects (String.ofList (before ++ (loaderText names hashes ++ after))) =
      .ok (objectText names, objectText hashes) := by
  have begins : namePrefix = loaderStart ++ "\"assets/js/\"+((".toList := by decide
  have start : find loaderStart (before ++ (loaderText names hashes ++ after)) = some before.length := by
    rw [find_skip first, loaderText, begins]
    simp only [List.append_assoc, find_here (show loaderStart ≠ [] by decide), Option.map_some, Nat.zero_add]
  simp only [loaderObjects, String.toList_ofList, start, List.drop_left]
  rw [List.take_append, List.take_of_length_le short]
  exact segmentObjects_loader namesFormed hashesFormed _

theorem ofEntries_ne_nil {entries : List (String × String)} (nonempty : entries ≠ []) :
    (Dict.ofEntries entries).entries.isEmpty = false := by
  obtain ⟨front, e, rfl⟩ := (List.eq_nil_or_concat' entries).resolve_left nonempty
  have known : ((Dict.ofEntries front).set e.1 e.2).get? e.1 = some e.2 := by rw [Dict.get?_set, if_pos rfl]
  rw [Dict.ofEntries, List.foldl_append]
  cases empty : ((Dict.ofEntries front).set e.1 e.2).entries with
  | nil => rw [Dict.get?, empty] at known; cases known
  | cons => exact congrArg List.isEmpty empty

theorem names_sublist (l : List (String × String)) (hash : String → Option String) :
    ((l.filterMap (fun e => (hash e.1).map (fun h => (e.2, chunkFile e.2 h)))).map Prod.fst).Sublist (l.map Prod.snd) := by
  induction l with
  | nil => exact .slnil
  | cons e rest ih =>
    rw [List.filterMap_cons, List.map_cons]
    cases hash e.1 with
    | none => exact ih.cons _
    | some h => exact ih.cons_cons _

/-- The parser asks for the files that the loader asks for: of the chunks that have a
    name, those with a hash have a file, and it is the loader's. -/
theorem chunkFiles_loader (unicode : CharTables) (namesFormed : ∀ e ∈ names, Formed e) (hashesFormed : ∀ e ∈ hashes, Formed e)
    (named : names ≠ []) (hashed : hashes ≠ []) (distinct : ((Dict.ofEntries names).entries.map Prod.snd).Nodup)
    (first : ∀ i < before.length, ¬ loaderStart <+: (before ++ (loaderText names hashes ++ after)).drop i)
    (short : (loaderText names hashes).length ≤ 20000) :
    ∃ files, chunkFiles unicode (String.ofList (before ++ (loaderText names hashes ++ after))) = .ok files ∧
      ∀ name file, files.get? name = some file ↔ ∃ id, property names id = some name ∧ (property hashes id).isSome ∧
        file = loaderFile names hashes id := by
  simp only [chunkFiles, loaderObjects_loader namesFormed hashesFormed first short, ok_bind,
    lookupObject_objectText namesFormed, lookupObject_objectText hashesFormed, ofEntries_ne_nil named, ofEntries_ne_nil hashed]
  refine ⟨_, rfl, fun name file => ?_⟩
  have byName : (Dict.ofEntries ((Dict.ofEntries names).entries.map (fun e => (e.2, e.1)))).entries =
      (Dict.ofEntries names).entries.map (fun e => (e.2, e.1)) := by
    refine Dict.entries_ofEntries ?_
    rw [List.map_map]
    exact distinct
  rw [byName, List.filterMap_map, Dict.get?_ofEntries]
  · simp only [List.mem_filterMap, Function.comp_apply, Option.map_eq_some_iff, Prod.mk.injEq, property, Prod.exists,
      ← Dict.get?_eq_some]
    constructor
    · rintro ⟨id, _, known, hash, hashKnown, rfl, rfl⟩
      exact ⟨id, known, by rw [hashKnown]; rfl, by simp only [loaderFile, property, known, hashKnown]; rfl⟩
    · rintro ⟨id, known, hasHash, rfl⟩
      obtain ⟨hash, hashKnown⟩ := Option.isSome_iff_exists.mp hasHash
      exact ⟨id, name, known, hash, hashKnown, rfl, by simp only [loaderFile, property, known, hashKnown]; rfl⟩
  · exact distinct.sublist (names_sublist _ _)

/-- A page of the portal's runtime bundle. -/
def runtimeJs : List Char := "(()=>\x7b".toList ++ (loaderText [("12", "e57c48f7"), ("7", "a1b2")] [("7", "ff01"), ("12", "0a9d")] ++
  "\x7d)()".toList)

theorem chunkFiles_loader_runtime : ∃ files, chunkFiles latin1 (String.ofList runtimeJs) = .ok files ∧
    ∀ name file, files.get? name = some file ↔ ∃ id,
      property [("12", "e57c48f7"), ("7", "a1b2")] id = some name ∧ (property [("7", "ff01"), ("12", "0a9d")] id).isSome ∧
        file = loaderFile [("12", "e57c48f7"), ("7", "a1b2")] [("7", "ff01"), ("12", "0a9d")] id := by
  have formed : ∀ e ∈ [("12", "e57c48f7"), ("7", "a1b2"), ("7", "ff01"), ("12", "0a9d")], Formed e := by
    simp only [List.forall_mem_cons]
    exact ⟨formed_of_all (by decide) (by decide), formed_of_all (by decide) (by decide), formed_of_all (by decide) (by decide),
      formed_of_all (by decide) (by decide), by simp⟩
  have first : ∀ i < "(()=>\x7b".toList.length, ¬ loaderStart <+: runtimeJs.drop i := by decide +kernel
  exact chunkFiles_loader latin1 (fun e inside => formed e (List.mem_of_mem_take (i := 2) inside))
    (fun e inside => formed e (List.mem_of_mem_drop (i := 2) inside)) (by decide) (by decide) (by decide) first
    (by decide +kernel)

end

end ScanApi.ChunkLoader
