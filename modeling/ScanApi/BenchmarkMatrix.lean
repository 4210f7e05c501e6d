import Mathlib.Data.String.Basic
import ScanApi.Repository

/-!
Which bank offers which capability (`app/benchmark.py`). The catalog's regular
expressions and `str.lower` are parameters. The rows of a query are grouped into
services, and every service of a listed bank ends up in the evidence of a cell
or among the unmatched (`nothing_falls_out`), whatever the catalog says.
-/
namespace ScanApi.BenchmarkMatrix
open ScanApi.Repository (BenchmarkRow)

/-- A regular expression of the catalog; the empty pattern is `none`. -/
abbrev Pattern := Option (String → Bool)

structure Capability where
  key : String
  group : String
  title : String
  paths : Pattern := none
  names : Pattern := none
  exclude : Pattern := none

structure ServiceInfo where
  name : String
  paths : List String := []
deriving DecidableEq, Repr

structure Evidence where
  service : String
  /-- Methods that count for the capability. -/
  matched : Nat
  /-- All methods of the service. -/
  total : Nat
  /-- The service name itself matched: every method counts. -/
  byName : Bool
deriving DecidableEq, Repr

structure Cell where
  auto : Bool
  override : Option Bool
  evidence : List Evidence
deriving DecidableEq

def Cell.present (cell : Cell) : Bool := match cell.override with
  | none => cell.auto
  | some override => override

structure Row where
  capability : Capability
  cells : Dict String Cell

/-- `row.cells[bank].evidence`. -/
def Row.evidence (row : Row) (bank : String) : List Evidence := ((row.cells.get? bank).map Cell.evidence).getD []

structure Benchmark where
  rows : List Row
  unmatched : Dict String (List String)

section
variable (lower : String → String)

def hits (pattern exclude : Pattern) (text : String) : Bool :=
  let text := lower text
  pattern.any (· text) && !exclude.any (· text)

/-- What speaks for the capability in a service. -/
def «match» (cap : Capability) (service : ServiceInfo) : Option Evidence :=
  let total := service.paths.length
  if hits lower cap.names cap.exclude service.name then some ⟨service.name, total, total, true⟩
  else
    let matched := service.paths.countP (hits lower cap.paths cap.exclude)
    if matched ≠ 0 then some ⟨service.name, matched, total, false⟩ else none

/-- The order of the keys `(-e.matched, e.service)`. -/
def Shown (a b : Evidence) : Prop := b.matched < a.matched ∨ a.matched = b.matched ∧ a.service ≤ b.service

instance : DecidableRel Shown := fun _ _ => inferInstanceAs (Decidable (_ ∨ _))

def cell (cap : Capability) (services : List ServiceInfo) (override : Option Bool) : Cell :=
  let evidence := (services.filterMap («match» lower cap)).insertionSort Shown
  ⟨!evidence.isEmpty, override, evidence⟩

/-- `{bank: f(bank) for bank in banks}`. -/
def perBank {ν : Type} (banks : List String) (f : String → ν) : Dict String ν :=
  Dict.ofEntries (banks.map (fun bank => (bank, f bank)))

def build (services : Dict String (List ServiceInfo)) (overrides : Dict (String × String) Bool) (banks : List String)
    (catalog : List Capability) : Benchmark :=
  let rows := catalog.map (fun cap => Row.mk cap (perBank banks (fun bank =>
    cell lower cap ((services.get? bank).getD []) (overrides.get? (cap.key, bank)))))
  let matchedNames := perBank banks (fun bank =>
    (rows.flatMap (fun row => (row.evidence bank).map Evidence.service)).toFinset)
  ⟨rows, perBank banks (fun bank =>
    ((((services.get? bank).getD []).filter (fun s => s.name ∉ (matchedNames.get? bank).getD ∅)).map
      ServiceInfo.name).insertionSort (· ≤ ·))⟩

end

/-- The loop of `services_from_rows` over one row. -/
def groupRow (grouped : Dict String (Dict String (List String))) (r : BenchmarkRow) :
    Dict String (Dict String (List String)) :=
  let byName := (grouped.get? r.bank).getD Dict.empty
  let paths := (byName.get? r.service).getD []
  let paths := match r.path with
    | none => paths
    | some path => if path = "" then paths else paths ++ [path]
  grouped.set r.bank (byName.set r.service paths)

/-- Groups flat (bank, service, path) rows. -/
def servicesFromRows (rows : List BenchmarkRow) : Dict String (List ServiceInfo) :=
  (rows.foldl groupRow Dict.empty).mapValues (fun _ byName =>
    byName.entries.map (fun e => ⟨e.1, e.2⟩))

/-! ### Services of the rows -/

/-- A row of the bank names the service. -/
def Offers (rows : List BenchmarkRow) (bank service : String) : Prop := ∃ r ∈ rows, r.bank = bank ∧ r.service = service

instance (rows : List BenchmarkRow) (bank service : String) : Decidable (Offers rows bank service) :=
  inferInstanceAs (Decidable (∃ r ∈ rows, _))

/-- The paths of a service of a bank. -/
def pathsOf (rows : List BenchmarkRow) (bank service : String) : List String :=
  (rows.filter (fun r => r.bank = bank ∧ r.service = service)).filterMap (fun r => r.path.filter (· ≠ ""))

/-- The services of a bank, as the rows give them. -/
def Service (rows : List BenchmarkRow) (bank : String) (s : ServiceInfo) : Prop :=
  Offers rows bank s.name ∧ s.paths = pathsOf rows bank s.name

theorem pathsOf_snoc (rows : List BenchmarkRow) (r : BenchmarkRow) (bank service : String) :
    pathsOf (rows ++ [r]) bank service = pathsOf rows bank service ++
      if r.bank = bank ∧ r.service = service then (r.path.filter (· ≠ "")).toList else [] := by
  rw [pathsOf, List.filter_append, List.filterMap_append, ← pathsOf]
  congr 1
  by_cases here : r.bank = bank ∧ r.service = service
  · simp only [List.filter_cons, here, and_self, decide_true, if_true, List.filter_nil, List.filterMap_cons,
      List.filterMap_nil]
    cases r.path.filter (· ≠ "") <;> rfl
  · simp [here]

theorem offers_snoc {rows : List BenchmarkRow} {r : BenchmarkRow} {bank service : String} :
    Offers (rows ++ [r]) bank service ↔ Offers rows bank service ∨ r.bank = bank ∧ r.service = service := by
  simp [Offers, or_and_right, exists_or]

/-- A service that no row names has no paths. -/
theorem pathsOf_of_not_offers {rows : List BenchmarkRow} {bank service : String} (absent : ¬ Offers rows bank service) :
    pathsOf rows bank service = [] := by
  have none : rows.filter (fun r => r.bank = bank ∧ r.service = service) = [] := by
    rw [List.filter_eq_nil_iff]
    intro r member here
    exact absent ⟨r, member, of_decide_eq_true here⟩
  rw [pathsOf, none, List.filterMap_nil]

/-- The grouped rows hold the paths of every service that a row names, and nothing else. -/
theorem get?_grouped (rows : List BenchmarkRow) (bank service : String) :
    (((rows.foldl groupRow Dict.empty).get? bank).getD Dict.empty).get? service =
      if Offers rows bank service then some (pathsOf rows bank service) else none := by
  induction rows using List.reverseRecOn with
  | nil => simp [Offers]
  | append_singleton rows r ih =>
    rw [List.foldl_append, List.foldl_cons, List.foldl_nil, groupRow, Dict.get?_set]
    by_cases here : r.bank = bank
    · subst here
      rw [if_pos rfl, Option.getD_some, Dict.get?_set, pathsOf_snoc]
      by_cases named : r.service = service
      · subst named
        have old : ((((rows.foldl groupRow Dict.empty).get? r.bank).getD Dict.empty).get? r.service).getD [] =
            pathsOf rows r.bank r.service := by
          rw [ih]
          split
          · rfl
          · rename_i absent; rw [pathsOf_of_not_offers absent]; rfl
        rw [old, if_pos rfl, if_pos (offers_snoc.mpr (.inr ⟨rfl, rfl⟩)), if_pos ⟨rfl, rfl⟩]
        cases path : r.path with
        | none => simp
        | some text => by_cases blank : text = "" <;> simp [blank, Option.filter]
      · have other : service ≠ r.service := fun same => named same.symm
        simp only [if_neg other, ih, offers_snoc, named, and_false, or_false, if_false, List.append_nil]
    · have other : bank ≠ r.bank := fun same => here same.symm
      simp only [if_neg other, ih, offers_snoc, pathsOf_snoc, here, false_and, or_false, if_false, List.append_nil]

/-- The services of a bank are exactly those of the rows, each once. -/
theorem mem_servicesFromRows {rows : List BenchmarkRow} {bank : String} {s : ServiceInfo} :
    s ∈ ((servicesFromRows rows).get? bank).getD [] ↔ Service rows bank s := by
  have grouped := get?_grouped rows bank s.name
  rw [servicesFromRows, Dict.get?_mapValues, Service]
  cases found : (rows.foldl groupRow Dict.empty).get? bank with
  | none =>
    rw [found] at grouped
    have absent : ¬ Offers rows bank s.name := by
      intro offered
      rw [if_pos offered] at grouped
      cases grouped
    simp [absent]
  | some byName =>
    rw [found, Option.getD_some] at grouped
    have entry : s ∈ byName.entries.map (fun e => ServiceInfo.mk e.1 e.2) ↔ byName.get? s.name = some s.paths := by
      rw [Dict.get?_eq_some, List.mem_map]
      constructor
      · rintro ⟨e, member, rfl⟩; exact member
      · intro member; exact ⟨_, member, rfl⟩
    rw [Option.map_some, Option.getD_some, entry, grouped]
    by_cases offered : Offers rows bank s.name
    · simp [offered, eq_comm]
    · simp [offered]

/-! ### The matrix -/

section
variable {lower : String → String} {cap : Capability} {services : Dict String (List ServiceInfo)}
  {overrides : Dict (String × String) Bool} {banks : List String} {catalog : List Capability} {bank : String}

theorem get?_perBank {ν : Type} {f : String → ν} (listed : bank ∈ banks) : (perBank banks f).get? bank = some (f bank) := by
  rw [perBank]
  exact Dict.get?_ofEntries_map listed

/-- The evidence of a service names it. -/
theorem service_of_match {s : ServiceInfo} {e : Evidence} (found : «match» lower cap s = some e) : e.service = s.name := by
  rw [«match»] at found
  split at found
  · cases found; rfl
  · dsimp only at found
    split at found
    · cases found; rfl
    · cases found

theorem mem_evidence {infos : List ServiceInfo} {override : Option Bool} {e : Evidence} :
    e ∈ (cell lower cap infos override).evidence ↔ ∃ s ∈ infos, «match» lower cap s = some e := by
  simp [cell]

theorem auto_iff {infos : List ServiceInfo} {override : Option Bool} :
    (cell lower cap infos override).auto = true ↔ ∃ s ∈ infos, («match» lower cap s).isSome := by
  have filled : (cell lower cap infos override).auto = true ↔ ∃ e, e ∈ (cell lower cap infos override).evidence := by
    rw [cell, Bool.not_eq_true', List.isEmpty_eq_false_iff_exists_mem]
  simp only [filled, mem_evidence, Option.isSome_iff_exists]
  constructor
  · rintro ⟨e, s, member, found⟩; exact ⟨s, member, e, found⟩
  · rintro ⟨s, member, e, found⟩; exact ⟨e, s, member, found⟩

instance : Std.Total Shown where
  total a b := by
    unfold Shown
    rcases Nat.lt_trichotomy a.matched b.matched with less | same | more
    · exact .inr (.inl less)
    · rcases le_total a.service b.service with up | down
      · exact .inl (.inr ⟨same, up⟩)
      · exact .inr (.inr ⟨same.symm, down⟩)
    · exact .inl (.inl more)

instance : IsTrans Evidence Shown where
  trans a b c := by
    rintro (more | ⟨same, up⟩) (more' | ⟨same', up'⟩)
    · exact .inl (more'.trans more)
    · exact .inl (same' ▸ more)
    · exact .inl (same ▸ more')
    · exact .inr ⟨same.trans same', up.trans up'⟩

/-- The evidence stands in the order of its keys, and is what matched. -/
theorem evidence_sorted (infos : List ServiceInfo) (override : Option Bool) :
    (cell lower cap infos override).evidence.Pairwise Shown ∧
      (cell lower cap infos override).evidence.Perm (infos.filterMap («match» lower cap)) :=
  ⟨List.pairwise_insertionSort _ _, List.perm_insertionSort _ _⟩

theorem present_eq (infos : List ServiceInfo) (override : Option Bool) :
    (cell lower cap infos override).present = override.getD (cell lower cap infos override).auto := by
  cases override <;> rfl

/-- What matched among services with distinct names has distinct names. -/
theorem evidence_nodup {infos : List ServiceInfo} (distinct : (infos.map ServiceInfo.name).Nodup)
    (override : Option Bool) : ((cell lower cap infos override).evidence.map Evidence.service).Nodup := by
  have once : ((infos.filterMap («match» lower cap)).map Evidence.service).Sublist (infos.map ServiceInfo.name) := by
    clear distinct
    induction infos with
    | nil => exact List.Sublist.refl _
    | cons s rest ih =>
      cases found : «match» lower cap s with
      | none =>
        rw [List.filterMap_cons_none found]
        exact ih.cons _
      | some e =>
        rw [List.filterMap_cons_some found, List.map_cons, List.map_cons, service_of_match found]
        exact ih.cons_cons _
  exact ((evidence_sorted infos override).2.map Evidence.service).nodup_iff.mpr (distinct.sublist once)

theorem servicesFromRows_nodup (rows : List BenchmarkRow) (bank : String) :
    ((((servicesFromRows rows).get? bank).getD []).map ServiceInfo.name).Nodup := by
  rw [servicesFromRows, Dict.get?_mapValues]
  cases (rows.foldl groupRow Dict.empty).get? bank with
  | none => simp
  | some byName => simpa [List.map_map, Function.comp_def] using byName.distinct

/-- The services shown in the rows of a bank. -/
def Evident (result : Benchmark) (bank service : String) : Prop :=
  ∃ row ∈ result.rows, ∃ e ∈ row.evidence bank, e.service = service

/-- The cell of a row for a listed bank. -/
theorem cell_of_row {row : Row} (member : row ∈ (build lower services overrides banks catalog).rows)
    (listed : bank ∈ banks) : row.cells.get? bank = some
      (cell lower row.capability ((services.get? bank).getD []) (overrides.get? (row.capability.key, bank))) := by
  obtain ⟨cap, -, rfl⟩ := List.mem_map.mp member
  exact get?_perBank listed

theorem evident_iff {service : String} (listed : bank ∈ banks) :
    Evident (build lower services overrides banks catalog) bank service ↔
      ∃ cap ∈ catalog, ∃ s ∈ (services.get? bank).getD [], («match» lower cap s).isSome ∧ s.name = service := by
  have rows : (build lower services overrides banks catalog).rows.map Row.capability = catalog := by
    simp [build, List.map_map, Function.comp_def]
  constructor
  · rintro ⟨row, member, e, shown, rfl⟩
    rw [Row.evidence, cell_of_row member listed, Option.map_some, Option.getD_some, mem_evidence] at shown
    obtain ⟨s, offered, found⟩ := shown
    refine ⟨row.capability, rows ▸ List.mem_map_of_mem member, s, offered, Option.isSome_iff_exists.mpr ⟨e, found⟩, ?_⟩
    exact (service_of_match found).symm
  · rintro ⟨cap, inside, s, offered, some, rfl⟩
    obtain ⟨row, member, rfl⟩ := List.mem_map.mp (rows.symm ▸ inside)
    obtain ⟨e, found⟩ := Option.isSome_iff_exists.mp some
    refine ⟨row, member, e, ?_, service_of_match found⟩
    rw [Row.evidence, cell_of_row member listed, Option.map_some, Option.getD_some, mem_evidence]
    exact ⟨s, offered, found⟩

theorem mem_matchedNames {result : Benchmark} {service : String} :
    service ∈ (result.rows.flatMap (fun row => (row.evidence bank).map Evidence.service)).toFinset ↔
      Evident result bank service := by
  simp [Evident]

/-- The unmatched services of a listed bank: sorted, and those that no row shows. -/
theorem unmatched_of (listed : bank ∈ banks) :
    ∃ names, (build lower services overrides banks catalog).unmatched.get? bank = some names ∧
      names.Pairwise (· ≤ ·) ∧ ∀ service, service ∈ names ↔
        (∃ s ∈ (services.get? bank).getD [], s.name = service) ∧
          ¬ Evident (build lower services overrides banks catalog) bank service := by
  refine ⟨_, get?_perBank listed, List.pairwise_insertionSort _ _, fun service => ?_⟩
  rw [get?_perBank listed, Option.getD_some, List.mem_insertionSort, List.mem_map, ← mem_matchedNames]
  simp only [List.mem_filter, decide_eq_true_eq]
  constructor
  · rintro ⟨s, ⟨offered, absent⟩, rfl⟩; exact ⟨⟨s, offered, rfl⟩, absent⟩
  · rintro ⟨⟨s, offered, rfl⟩, absent⟩; exact ⟨s, ⟨offered, absent⟩, rfl⟩

theorem perBank_congr {ν : Type} {f g : String → ν} (same : ∀ bank ∈ banks, f bank = g bank) :
    perBank banks f = perBank banks g := by
  rw [perBank, perBank, List.map_congr_left (fun bank listed => by rw [same bank listed])]

theorem build_evidence (overrides' : Dict (String × String) Bool) (listed : bank ∈ banks) :
    (build lower services overrides banks catalog).rows.map (fun row => (row.capability, row.evidence bank)) =
      (build lower services overrides' banks catalog).rows.map (fun row => (row.capability, row.evidence bank)) := by
  simp only [build, List.map_map]
  refine List.map_congr_left (fun cap _ => ?_)
  simp only [Function.comp_apply, Row.evidence, get?_perBank listed]
  rfl

theorem build_unmatched (overrides' : Dict (String × String) Bool) :
    (build lower services overrides banks catalog).unmatched =
      (build lower services overrides' banks catalog).unmatched := by
  have matched : ∀ result : Benchmark, ∀ bank,
      result.rows.flatMap (fun row => (row.evidence bank).map Evidence.service) =
        (result.rows.map (fun row => (row.capability, row.evidence bank))).flatMap
          (fun shown => shown.2.map Evidence.service) := by
    intro result bank
    rw [List.flatMap_map]
  refine perBank_congr (fun bank listed => ?_)
  have here := matched (build lower services overrides banks catalog) bank
  rw [build_evidence overrides' listed, ← matched] at here
  simp only [get?_perBank listed, Option.getD_some]
  exact congrArg (fun names : List String =>
    ((((services.get? bank).getD []).filter (fun s => s.name ∉ names.toFinset)).map ServiceInfo.name).insertionSort
      (· ≤ ·)) here

end

/-- A matrix that shows every service of the listed banks. -/
structure Complete (lower : String → String) (rows : List BenchmarkRow) (overrides : Dict (String × String) Bool)
    (banks : List String) (catalog : List Capability) (result : Benchmark) : Prop where
  capabilities : result.rows.map Row.capability = catalog
  /-- An offered service is evidence or unmatched, not both; no other service is either. -/
  services : ∀ bank ∈ banks, ∃ names, result.unmatched.get? bank = some names ∧ names.Pairwise (· ≤ ·) ∧
    ∀ service, (Offers rows bank service → Xor (Evident result bank service) (service ∈ names)) ∧
      (¬ Offers rows bank service → ¬ Evident result bank service ∧ service ∉ names)
  cells : ∀ row ∈ result.rows, ∀ bank ∈ banks, ∃ cell, row.cells.get? bank = some cell ∧
    (cell.auto = true ↔ ∃ s, Service rows bank s ∧ («match» lower row.capability s).isSome) ∧
    (∀ e, e ∈ cell.evidence ↔ ∃ s, Service rows bank s ∧ «match» lower row.capability s = some e) ∧
    cell.evidence.Pairwise Shown ∧ (cell.evidence.map Evidence.service).Nodup ∧
    cell.present = (overrides.get? (row.capability.key, bank)).getD cell.auto

/-- The matrix shows every service of the listed banks, and overrides change neither evidence nor the unmatched
    services. -/
theorem nothing_falls_out (lower : String → String) (rows : List BenchmarkRow) (overrides : Dict (String × String) Bool)
    (banks : List String) (catalog : List Capability) :
    Complete lower rows overrides banks catalog (build lower (servicesFromRows rows) overrides banks catalog) ∧
    ∀ overrides' : Dict (String × String) Bool,
      let result := build lower (servicesFromRows rows) overrides banks catalog
      let result' := build lower (servicesFromRows rows) overrides' banks catalog
      (∀ bank ∈ banks, result.rows.map (fun row => (row.capability, row.evidence bank)) =
        result'.rows.map (fun row => (row.capability, row.evidence bank))) ∧ result.unmatched = result'.unmatched := by
  have offers : ∀ bank service, (∃ s ∈ ((servicesFromRows rows).get? bank).getD [], s.name = service) ↔
      Offers rows bank service := by
    intro bank service
    constructor
    · rintro ⟨s, member, rfl⟩; exact (mem_servicesFromRows.mp member).1
    · intro offered; exact ⟨⟨service, pathsOf rows bank service⟩, mem_servicesFromRows.mpr ⟨offered, rfl⟩, rfl⟩
  refine ⟨⟨by simp [build, List.map_map, Function.comp_def], fun bank listed => ?_, fun row member bank listed => ?_⟩,
    fun overrides' => ⟨fun bank listed => build_evidence overrides' listed, build_unmatched overrides'⟩⟩
  · obtain ⟨names, found, sorted, names_iff⟩ :=
      @unmatched_of lower (servicesFromRows rows) overrides banks catalog bank listed
    refine ⟨names, found, sorted, fun service => ?_⟩
    have evident : Evident (build lower (servicesFromRows rows) overrides banks catalog) bank service →
        Offers rows bank service := by
      intro shown
      obtain ⟨cap, -, s, offered, -, same⟩ := (evident_iff listed).mp shown
      exact (offers bank service).mp ⟨s, offered, same⟩
    rw [names_iff, offers]
    constructor
    · intro offered
      by_cases shown : Evident (build lower (servicesFromRows rows) overrides banks catalog) bank service
      · exact .inl ⟨shown, fun both => both.2 shown⟩
      · exact .inr ⟨⟨offered, shown⟩, shown⟩
    · intro absent
      exact ⟨fun shown => absent (evident shown), fun unmatched => absent unmatched.1⟩
  · refine ⟨_, cell_of_row member listed, ?_, fun e => ?_, (evidence_sorted _ _).1,
      evidence_nodup (servicesFromRows_nodup rows bank) _, present_eq _ _⟩
    · simp only [auto_iff, mem_servicesFromRows]
    · simp only [mem_evidence, mem_servicesFromRows]

end ScanApi.BenchmarkMatrix
