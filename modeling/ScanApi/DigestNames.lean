import ScanApi.NotifyFormat

/-!
What the digest reads back from a change (`_service_of`, `_field_diff`). The path
of a method and the two values of a field change are joined on separators that
nothing escapes, and are split on the same separators again: a name comes back
whole where no separator stands in it.
-/
namespace ScanApi.DigestNames
open ScanApi.Diff ScanApi.Unicode ScanApi.NotifyFormat

/-! ### The service of a method -/

def slash : Chars := [' ', '/', ' ']

/-- No separator begins inside the service's name. -/
def Separable (service : Chars) : Prop := ¬ slash <:+: service ++ [' ', '/']

instance (service : Chars) : Decidable (Separable service) := inferInstanceAs (Decidable (¬ _))

theorem beforeSlash_cons {c : Char} {text : Chars} (other : ¬ slash <+: c :: text) :
    beforeSlash (c :: text) = (beforeSlash text).map (c :: ·) := by
  rw [beforeSlash]
  rintro rest rfl rfl
  exact other ⟨rest, rfl⟩

/-- The separator that was written is found where none begins before it. -/
theorem beforeSlash_append {rest : Chars} : ∀ {service : Chars}, Separable service →
    beforeSlash (service ++ slash ++ rest) = some service := by
  intro service
  induction service with
  | nil => intro _; rfl
  | cons c cs ih =>
    intro separable
    have inside : Separable cs := fun found => separable (List.infix_cons found)
    have other : ¬ slash <+: c :: (cs ++ slash ++ rest) := by
      intro here
      have short : c :: (cs ++ [' ', '/']) <+: c :: (cs ++ slash ++ rest) := ⟨' ' :: rest, by simp [slash]⟩
      have longer : slash.length ≤ (c :: (cs ++ [' ', '/'])).length := by simp [slash]
      exact separable (List.prefix_of_prefix_length_le here short longer).isInfix
    have step : beforeSlash (c :: (cs ++ slash ++ rest)) = (beforeSlash (cs ++ slash ++ rest)).map (c :: ·) :=
      beforeSlash_cons other
    rw [List.cons_append, List.cons_append, step, ih inside]
    rfl

/-- What stands before the first separator, and that it is the first. -/
theorem beforeSlash_some {text : Chars} : ∀ {before : Chars}, beforeSlash text = some before →
    (∃ rest, text = before ++ slash ++ rest) ∧ Separable before := by
  induction text with
  | nil => intro before found; cases found
  | cons c cs ih =>
    intro before found
    by_cases here : slash <+: c :: cs
    · obtain ⟨rest, same⟩ := here
      rw [← same] at found ⊢
      obtain rfl : [] = before := Option.some.inj found
      exact ⟨⟨rest, rfl⟩, by decide⟩
    · rw [beforeSlash_cons here] at found
      obtain ⟨inner, further, rfl⟩ := Option.map_eq_some_iff.mp found
      obtain ⟨⟨rest, rfl⟩, separable⟩ := ih further
      refine ⟨⟨rest, rfl⟩, fun infixed => ?_⟩
      rcases List.infix_cons_iff.mp infixed with first | later
      · refine here (first.trans ⟨' ' :: rest, ?_⟩)
        simp [slash]
      · exact separable later

/-- The path begins with the service and the separator, with the service in the key or before it. -/
theorem entityPath_eq (action : Action) (m : MethodRecord) (hidden : Bool) :
    ∃ rest, (methodChange action m hidden).entityPath.toList = m.service.toList ++ slash ++ rest := by
  have sep : (" / " : String).toList = slash := rfl
  by_cases grouped : startsWith (methodKey m) (m.service ++ " / ") = true
  · have path : (methodChange action m hidden).entityPath = methodKey m := by simp [methodChange, grouped]
    obtain ⟨rest, same⟩ := List.isPrefixOf_iff_prefix.mp grouped
    rw [String.toList_append, sep] at same
    exact ⟨rest, by rw [path, same]⟩
  · have path : (methodChange action m hidden).entityPath = m.service ++ " / " ++ methodKey m := by
      simp [methodChange, grouped]
    exact ⟨(methodKey m).toList, by rw [path, String.toList_append, String.toList_append, sep]⟩

theorem serviceOf_methodChange_iff (action : Action) (m : MethodRecord) (hidden : Bool) :
    serviceOf (methodChange action m hidden) = m.service.toList ↔ Separable m.service.toList := by
  obtain ⟨rest, path⟩ := entityPath_eq action m hidden
  rw [serviceOf, path]
  constructor
  · intro same
    cases found : beforeSlash (m.service.toList ++ slash ++ rest) with
    | none =>
      rw [found] at same
      rw [← same]
      decide
    | some before =>
      rw [found] at same
      obtain rfl : before = m.service.toList := same
      exact (beforeSlash_some found).2
  · intro separable
    rw [beforeSlash_append separable]
    rfl

/-! ### The fields of a change -/

/-- A name that joining, splitting and stripping leave as it is. -/
structure Plain (unicode : CharTables) (name : Chars) : Prop where
  noComma : ',' ∉ name
  noBlankAtEnd : name.rdropWhile unicode.isspace = name

variable {unicode : CharTables}

theorem intercalate_comma (first : Chars) (others : List Chars) :
    ", ".toList.intercalate (first :: others) = [','].intercalate (first :: others.map (' ' :: ·)) := by
  induction others generalizing first with
  | nil => rfl
  | cons second others ih =>
    rw [List.intercalate_cons_cons, ih, List.map_cons, List.intercalate_cons_cons]
    cases others with
    | nil => simp
    | cons _ _ => simp [List.intercalate_cons_cons]

theorem isspace_blank : unicode.isspace ' ' = true := by
  rw [unicode.isspace_ascii _ (by decide)]
  rfl

theorem strip_blank (text : Chars) : strip unicode (' ' :: text) = strip unicode text := by
  simp [strip, isspace_blank]

/-- A sign at the front is not a blank, so only the end is stripped. -/
theorem strip_cons {sign : Char} (visible : unicode.isspace sign = false) (name : Chars) :
    strip unicode (sign :: name) = sign :: name.rdropWhile unicode.isspace := by
  have front : (sign :: name).dropWhile unicode.isspace = sign :: name := by simp [visible]
  rw [strip, front, List.rdropWhile, List.rdropWhile, List.reverse_cons, List.dropWhile_append]
  split <;> rename_i blank
  · simp [visible, List.isEmpty_iff.mp blank]
  · simp

theorem not_mem_strip {c : Char} {text : Chars} (absent : c ∉ text) : c ∉ strip unicode text := by
  intro member
  have inside := (List.rdropWhile_prefix unicode.isspace (l := text.dropWhile unicode.isspace)).subset member
  exact absent ((List.dropWhile_suffix _).subset inside)

/-- No name that was read has a comma. -/
theorem comma_not_mem_names {value : String} : ∀ part ∈ names unicode value, ',' ∉ part := by
  intro part member
  obtain ⟨piece, inside, rfl⟩ := List.mem_map.mp (List.mem_filter.mp member).1
  exact not_mem_strip (not_mem_splitOn piece inside)

/-- Signed names without commas are read one by one. -/
theorem names_intercalate {sign : Char} (visible : unicode.isspace sign = false) (comma : sign ≠ ',') {fields : List Chars}
    (noComma : ∀ f ∈ fields, ',' ∉ f) {value : String}
    (joined : value.toList = ", ".toList.intercalate (fields.map (sign :: ·))) :
    names unicode value = fields.map (fun f => sign :: f.rdropWhile unicode.isspace) := by
  cases fields with
  | nil => rw [names, joined]; rfl
  | cons f fs =>
    have parts : value.toList.splitOn ',' = (sign :: f) :: (fs.map (sign :: ·)).map (' ' :: ·) := by
      rw [joined, List.map_cons, intercalate_comma, List.splitOn_intercalate _ _ (by simp)]
      intro part member
      rcases List.mem_cons.mp member with rfl | member
      · simp [comma.symm, noComma f (by simp)]
      · obtain ⟨_, inner, rfl⟩ := List.mem_map.mp member
        obtain ⟨g, known, rfl⟩ := List.mem_map.mp inner
        simp [comma.symm, noComma g (List.mem_cons_of_mem _ known)]
    have stripped : (value.toList.splitOn ',').map (strip unicode) =
        (f :: fs).map (fun f => sign :: f.rdropWhile unicode.isspace) := by
      rw [parts]
      simp [strip_blank, strip_cons visible, Function.comp_def]
    rw [names, stripped, List.filter_eq_self]
    intro part member
    obtain ⟨_, _, rfl⟩ := List.mem_map.mp member
    simp

/-- The entries that `fieldDiff` makes of a change. -/
def items (unicode : CharTables) (change : Change) : List Chars :=
  names unicode change.newValue ++ (names unicode change.oldValue).map (fun f => '−' :: f.dropWhile (· = '-'))

/-- Few and short entries are all shown, and whole. -/
theorem fieldDiff_of_short {change : Change} (few : (items unicode change).length ≤ maxFieldsShown)
    (short : (", ".toList.intercalate (items unicode change)).length ≤ maxNameChars * 2) :
    fieldDiff unicode change = ", ".toList.intercalate (items unicode change) := by
  have all : (items unicode change).take maxFieldsShown = items unicode change := List.take_of_length_le few
  have shown : fieldDiff unicode change =
      clip (if maxFieldsShown < (items unicode change).length then
          ", ".toList.intercalate ((items unicode change).take maxFieldsShown) ++ " … (+".toList ++
            (toString ((items unicode change).length - maxFieldsShown)).toList ++ ")".toList
        else ", ".toList.intercalate ((items unicode change).take maxFieldsShown)) (maxNameChars * 2) := rfl
  rw [shown, if_neg (by omega), all, clip, if_pos short]

/-- The fields that a change adds, and those that it removes. -/
def addedFields (old new : MethodRecord) : List Chars := (sorted (new.fields \ old.fields)).map String.toList
def removedFields (old new : MethodRecord) : List Chars := (sorted (old.fields \ new.fields)).map String.toList

/-- `+f` for each added field and `−f` for each removed one. -/
def changedItems (old new : MethodRecord) : List Chars :=
  (addedFields old new).map ('+' :: ·) ++ (removedFields old new).map ('−' :: ·)

/-- The digest lists exactly the changed fields. -/
structure Lists (unicode : CharTables) (old new : MethodRecord) (change : Change) : Prop where
  entries : items unicode change = changedItems old new
  text : fieldDiff unicode change = ", ".toList.intercalate (changedItems old new)

/-- Few changed fields, with names that nothing clips. -/
structure Short (old new : MethodRecord) : Prop where
  few : (changedItems old new).length ≤ maxFieldsShown
  unclipped : (", ".toList.intercalate (changedItems old new)).length ≤ maxNameChars * 2

theorem fieldChange_values {old new : MethodRecord} {change : Change} (changed : fieldChange old new = some change) :
    change.newValue.toList = ", ".toList.intercalate ((addedFields old new).map ('+' :: ·)) ∧
      change.oldValue.toList = ", ".toList.intercalate ((removedFields old new).map ('-' :: ·)) := by
  rw [fieldChange] at changed
  split at changed
  · cases changed
  · obtain rfl := Option.some.inj changed
    have plus : ("+" : String).toList = ['+'] := rfl
    have minus : ("-" : String).toList = ['-'] := rfl
    constructor <;> simp [addedFields, removedFields, String.toList_intercalate, Function.comp_def, plus, minus]

section
variable {old new : MethodRecord} {change : Change}

/-- Without commas every entry is one field. -/
theorem items_of_noComma (changed : fieldChange old new = some change)
    (noComma : ∀ f ∈ addedFields old new ++ removedFields old new, ',' ∉ f) :
    items unicode change = (addedFields old new).map (fun f => '+' :: f.rdropWhile unicode.isspace) ++
      (removedFields old new).map (fun f => '−' :: (f.rdropWhile unicode.isspace).dropWhile (· = '-')) := by
  obtain ⟨newValue, oldValue⟩ := fieldChange_values changed
  have plus : unicode.isspace '+' = false := by rw [unicode.isspace_ascii _ (by decide)]; rfl
  have minus : unicode.isspace '-' = false := by rw [unicode.isspace_ascii _ (by decide)]; rfl
  rw [items, names_intercalate plus (by decide) (fun f member => noComma f (List.mem_append_left _ member)) newValue,
    names_intercalate minus (by decide) (fun f member => noComma f (List.mem_append_right _ member)) oldValue,
    List.map_map]
  simp [Function.comp_def]

theorem comma_not_mem_items : ∀ part ∈ items unicode change, ',' ∉ part := by
  intro part member
  rcases List.mem_append.mp member with added | removed
  · exact comma_not_mem_names part added
  · obtain ⟨name, inside, rfl⟩ := List.mem_map.mp removed
    intro comma
    rcases List.mem_cons.mp comma with sign | comma
    · exact absurd sign (by decide)
    · exact comma_not_mem_names name inside ((List.dropWhile_suffix _).subset comma)

theorem noComma_of_items (same : items unicode change = changedItems old new) :
    ∀ f ∈ addedFields old new ++ removedFields old new, ',' ∉ f := by
  intro f member comma
  have listed : ∀ part ∈ changedItems old new, ',' ∉ part := same ▸ comma_not_mem_items
  rcases List.mem_append.mp member with added | removed
  · exact listed ('+' :: f) (List.mem_append_left _ (List.mem_map_of_mem added)) (List.mem_cons_of_mem _ comma)
  · exact listed ('−' :: f) (List.mem_append_right _ (List.mem_map_of_mem removed)) (List.mem_cons_of_mem _ comma)

/-- A removed name keeps its text where no blank ends it and no minus begins it. -/
theorem removed_kept_iff (name : Chars) : (name.rdropWhile unicode.isspace).dropWhile (· = '-') = name ↔
    name.rdropWhile unicode.isspace = name ∧ name.head? ≠ some '-' := by
  constructor
  · intro kept
    have first := List.dropWhile_suffix (l := name.rdropWhile unicode.isspace) (· = '-')
    have second := List.rdropWhile_prefix unicode.isspace (l := name)
    have whole : name.rdropWhile unicode.isspace = name := by
      refine second.eq_of_length_le ?_
      have shorter := first.length_le
      rwa [kept] at shorter
    refine ⟨whole, fun minus => ?_⟩
    rw [whole] at kept
    cases name with
    | nil => cases minus
    | cons c rest =>
      obtain rfl : c = '-' := by simpa using minus
      have shorter := (List.dropWhile_suffix (l := rest) (· = '-')).length_le
      have longer := congrArg List.length kept
      simp at longer
      omega
  · rintro ⟨whole, front⟩
    rw [whole]
    cases name with
    | nil => rfl
    | cons c rest =>
      have other : c ≠ '-' := by simpa using front
      simp [other]

theorem items_iff (changed : fieldChange old new = some change) : items unicode change = changedItems old new ↔
    (∀ f ∈ addedFields old new ++ removedFields old new, Plain unicode f) ∧
      ∀ f ∈ removedFields old new, f.head? ≠ some '-' := by
  constructor
  · intro same
    have noComma := noComma_of_items same
    rw [items_of_noComma changed noComma, changedItems] at same
    obtain ⟨added, removed⟩ := List.append_inj same (by simp)
    have addedKept : ∀ f ∈ addedFields old new, f.rdropWhile unicode.isspace = f := fun f member =>
      (List.cons.inj (List.map_inj_left.mp added f member)).2
    have removedKept : ∀ f ∈ removedFields old new, f.rdropWhile unicode.isspace = f ∧ f.head? ≠ some '-' :=
      fun f member => (removed_kept_iff f).mp (List.cons.inj (List.map_inj_left.mp removed f member)).2
    refine ⟨fun f member => ⟨noComma f member, ?_⟩, fun f member => (removedKept f member).2⟩
    rcases List.mem_append.mp member with inAdded | inRemoved
    · exact addedKept f inAdded
    · exact (removedKept f inRemoved).1
  · rintro ⟨plain, front⟩
    rw [items_of_noComma changed (fun f member => (plain f member).noComma), changedItems]
    have addedKept : ∀ f ∈ addedFields old new, '+' :: f.rdropWhile unicode.isspace = '+' :: f := fun f member =>
      congrArg _ (plain f (List.mem_append_left _ member)).noBlankAtEnd
    have removedKept : ∀ f ∈ removedFields old new,
        '−' :: (f.rdropWhile unicode.isspace).dropWhile (· = '-') = '−' :: f := fun f member =>
      congrArg _ ((removed_kept_iff f).mpr ⟨(plain f (List.mem_append_right _ member)).noBlankAtEnd, front f member⟩)
    rw [List.map_congr_left addedKept, List.map_congr_left removedKept]

theorem lists_iff (short : Short old new) :
    Lists unicode old new change ↔ items unicode change = changedItems old new := by
  constructor
  · exact Lists.entries
  · intro same
    have few : (items unicode change).length ≤ maxFieldsShown := by rw [same]; exact short.few
    have unclipped : (", ".toList.intercalate (items unicode change)).length ≤ maxNameChars * 2 := by
      rw [same]; exact short.unclipped
    exact ⟨same, by rw [fieldDiff_of_short few unclipped, same]⟩

end

/-! ### What the digest decodes -/

/-- A service comes back where no separator begins in it, a list of fields where every name is plain
    and no removed one begins with a minus. -/
theorem digest_decodes_iff (unicode : CharTables) :
    (∀ action m hidden, serviceOf (methodChange action m hidden) = m.service.toList ↔ Separable m.service.toList) ∧
    ∀ old new change, fieldChange old new = some change → Short old new →
      (Lists unicode old new change ↔ (∀ f ∈ addedFields old new ++ removedFields old new, Plain unicode f) ∧
        ∀ f ∈ removedFields old new, f.head? ≠ some '-') :=
  ⟨serviceOf_methodChange_iff, fun _ _ _ changed short => (lists_iff short).trans (items_iff changed)⟩

/-- A transfer, as a method with these fields. -/
def transfer (service : String) (fields : Finset String) : MethodRecord where
  service := service
  httpMethod := "POST"
  path := "/transfers"
  name := "create"
  url := ""
  fields := fields

theorem digest_decodes_transfer : serviceOf (methodChange .added (transfer "Payments" ∅) false) = "Payments".toList ∧
    ∃ change, fieldChange (transfer "Payments" {"from"}) (transfer "Payments" {"to"}) = some change ∧
      Lists latin1 (transfer "Payments" {"from"}) (transfer "Payments" {"to"}) change := by
  obtain ⟨service, fields⟩ := digest_decodes_iff latin1
  have come : addedFields (transfer "Payments" {"from"}) (transfer "Payments" {"to"}) = ["to".toList] := by decide
  have gone : removedFields (transfer "Payments" {"from"}) (transfer "Payments" {"to"}) = ["from".toList] := by decide
  refine ⟨(service _ _ _).mpr (by decide), _, rfl, (fields _ _ _ rfl ⟨by decide, by decide⟩).mpr ⟨?_, ?_⟩⟩
  · rw [come, gone]
    intro f member
    rcases List.mem_cons.mp member with rfl | member
    · exact ⟨by decide, by decide⟩
    · obtain rfl := List.mem_singleton.mp member
      exact ⟨by decide, by decide⟩
  · rw [gone]
    decide

/-- A service with a separator in its name comes back as its first part, a field with a comma as two. -/
theorem transfers_torn :
    serviceOf (methodChange .added (transfer "Payments / Transfers" ∅) false) ≠ "Payments / Transfers".toList ∧
    ∃ change, fieldChange (transfer "Payments" ∅) (transfer "Payments" {"from,to"}) = some change ∧
      Short (transfer "Payments" ∅) (transfer "Payments" {"from,to"}) ∧
      ¬ Lists latin1 (transfer "Payments" ∅) (transfer "Payments" {"from,to"}) change :=
  ⟨by decide, _, rfl, ⟨by decide, by decide⟩, fun lists => absurd lists.entries (by decide)⟩

end ScanApi.DigestNames
