import ScanApi.MapM
import ScanApi.OpenApi

/-!
What a snapshot of the declared types holds: its records are those of the parsed
methods, each under the service that its tag names, and its services are the
tags.
-/
namespace ScanApi.Declared
open ScanApi.MapM ScanApi.Yaml ScanApi.Python ScanApi.OpenApi ScanApi.Diff ScanApi.SnapshotImport

/-- The record of a parsed method of the declared types. -/
def recordOf (method : RawMethod) : Option MethodRecord := do
  let service ← scalarText method.serviceName
  let declared ← declaredMethod method
  return methodRecord service declared

theorem scalarText_some {value : Scalar} {text : String} : scalarText value = some text ↔ value = .str text := by
  cases value <;> simp [scalarText]

theorem declaredService_some {e : Scalar × List RawMethod} {service : String × List ApiMethod} :
    declaredService e = some service ↔ e.1 = .str service.1 ∧ e.2.mapM declaredMethod = some service.2 := by
  simp only [declaredService, Option.bind_eq_bind, Option.bind_eq_some_iff, Option.pure_def, Option.some.injEq,
    scalarText_some]
  constructor
  · rintro ⟨name, named, methods, mapped, rfl⟩; exact ⟨named, mapped⟩
  · rintro ⟨named, mapped⟩; exact ⟨service.1, named, service.2, mapped, rfl⟩

theorem names_of_mapM {groups : List (Scalar × List RawMethod)} {services : List (String × List ApiMethod)}
    (mapped : groups.mapM declaredService = some services) : groups.map Prod.fst = services.map (fun e => .str e.1) := by
  have related := forall₂_mapM mapped
  clear mapped
  induction related with
  | nil => rfl
  | cons first _ ih => rw [List.map_cons, List.map_cons, (declaredService_some.mp first).1, ih]

theorem recordOf_some {method : RawMethod} {r : MethodRecord} : recordOf method = some r ↔
    ∃ service m, method.serviceName = .str service ∧ declaredMethod method = some m ∧ methodRecord service m = r := by
  simp only [recordOf, Option.bind_eq_bind, Option.bind_eq_some_iff, Option.pure_def, Option.some.injEq,
    scalarText_some]
  constructor
  · rintro ⟨service, named, m, declared, same⟩; exact ⟨service, m, named, declared, same⟩
  · rintro ⟨service, m, named, declared, same⟩; exact ⟨service, named, m, declared, same⟩

/-- What a record takes from a parsed method. -/
theorem recordOf_parts {method : RawMethod} {r : MethodRecord} (made : recordOf method = some r) :
    ∃ texts, method.serviceName = .str r.service ∧ r.httpMethod = method.httpMethod ∧ method.path = .str r.path ∧
      method.summary = .scalar (.str r.name) ∧ method.response200Fields.mapM scalarText = some texts ∧
      r.fields = texts.toFinset ∧ r.hidden = false := by
  obtain ⟨service, m, named, declared, rfl⟩ := recordOf_some.mp made
  simp only [declaredMethod, Option.bind_eq_bind, Option.bind_eq_some_iff, Option.pure_def, Option.some.injEq,
    scalarText_some] at declared
  obtain ⟨path, pathText, summary, summaryText, description, _, texts, fields, rfl⟩ := declared
  have name : method.summary = .scalar (.str summary) := by
    cases summaryNode : method.summary with
    | scalar value =>
      rw [summaryNode] at summaryText
      rw [scalarText_some.mp summaryText]
    | list _ | map _ | set _ => rw [summaryNode] at summaryText; cases summaryText
  exact ⟨texts, named, rfl, pathText, name, fields, rfl, rfl⟩

/-- The methods of a service are those that its tag names. -/
theorem mem_service {methods : List RawMethod} {e : Scalar × List RawMethod}
    (member : e ∈ (Dict.groupBy RawMethod.serviceName id methods).entries) {method : RawMethod} :
    method ∈ e.2 ↔ method ∈ methods ∧ method.serviceName = e.1 := by
  have found : (Dict.groupBy RawMethod.serviceName id methods).get? e.1 = some e.2 := Dict.get?_eq_some.mpr member
  have group := (Dict.get?_groupBy RawMethod.serviceName id methods e.1).1
  rw [found, Option.getD_some, List.map_id] at group
  rw [group, List.mem_filter, decide_eq_true_eq]

theorem exists_service {methods : List RawMethod} {method : RawMethod} (member : method ∈ methods) :
    ∃ e ∈ (Dict.groupBy RawMethod.serviceName id methods).entries, e.1 = method.serviceName ∧ method ∈ e.2 := by
  obtain ⟨l, found⟩ := Dict.mem_keys.mp ((Dict.get?_groupBy RawMethod.serviceName id methods _).2.mpr ⟨method, member, rfl⟩)
  have inside := Dict.get?_eq_some.mp found
  exact ⟨_, inside, rfl, (mem_service inside).mpr ⟨member, rfl⟩⟩

section
variable {methods : List RawMethod} {snapshot : ParseSnapshot}
  (made : declared (Dict.groupBy RawMethod.serviceName id methods) = some snapshot)
include made

/-- The services of the snapshot are the declared groups. -/
theorem services_mapM :
    (Dict.groupBy RawMethod.serviceName id methods).entries.mapM declaredService = some snapshot.services.entries := by
  obtain ⟨entries, mapped, rfl⟩ := Option.map_eq_some_iff.mp made
  have distinct : (entries.map Prod.fst).Nodup := by
    have keys := (Dict.groupBy RawMethod.serviceName id methods).distinct
    rw [names_of_mapM mapped] at keys
    refine List.Nodup.of_map Scalar.str ?_
    rwa [List.map_map]
  rw [Dict.entries_ofEntries distinct, mapped]

theorem mem_records {r : MethodRecord} :
    r ∈ (snapshotToRecords snapshot).2 ↔ ∃ method ∈ methods, recordOf method = some r := by
  have mapped := services_mapM made
  simp only [snapshotToRecords, List.mem_flatMap, List.mem_map, mem_mapM mapped, declaredService_some, recordOf_some]
  constructor
  · rintro ⟨service, ⟨e, member, named, declared⟩, m, inside, same⟩
    obtain ⟨method, among, one⟩ := (mem_mapM declared).mp inside
    obtain ⟨known, key⟩ := (mem_service member).mp among
    exact ⟨method, known, service.1, m, key.trans named, one, same⟩
  · rintro ⟨method, known, service, m, named, one, same⟩
    obtain ⟨e, member, key, among⟩ := exists_service known
    obtain ⟨declared, found⟩ := mapM_all mapped member
    obtain ⟨named', methods'⟩ := declaredService_some.mp found
    have sameName : service = declared.1 := Scalar.str.inj (named.symm.trans (key.symm.trans named'))
    refine ⟨declared, ⟨e, member, named', methods'⟩, m, (mem_mapM methods').mpr ⟨method, among, one⟩, ?_⟩
    rw [← sameName, same]

/-- Every parsed method has a record. -/
theorem recordOf_declared {method : RawMethod} (member : method ∈ methods) : ∃ r, recordOf method = some r := by
  obtain ⟨e, inside, key, among⟩ := exists_service member
  obtain ⟨service, found⟩ := mapM_all (services_mapM made) inside
  obtain ⟨named, declared⟩ := declaredService_some.mp found
  obtain ⟨m, one⟩ := mapM_all declared among
  exact ⟨methodRecord service.1 m, recordOf_some.mpr ⟨service.1, m, key.symm.trans named, one, rfl⟩⟩

theorem mem_serviceKeys {name : String} :
    name ∈ (snapshotToRecords snapshot).1.keys ↔ ∃ method ∈ methods, method.serviceName = .str name := by
  have mapped := services_mapM made
  simp only [snapshotToRecords, Dict.keys, Dict.mapValues, List.map_map, List.mem_toFinset, List.mem_map,
    mem_mapM mapped, declaredService_some, Function.comp_apply]
  constructor
  · rintro ⟨service, ⟨e, member, named, _⟩, rfl⟩
    have known : e.1 ∈ (Dict.groupBy RawMethod.serviceName id methods).keys :=
      Dict.mem_keys.mpr ⟨e.2, Dict.get?_eq_some.mpr member⟩
    obtain ⟨method, inside, key⟩ := (Dict.get?_groupBy RawMethod.serviceName id methods e.1).2.mp known
    exact ⟨method, inside, key.trans named⟩
  · rintro ⟨method, inside, named⟩
    obtain ⟨e, member, key, _⟩ := exists_service inside
    obtain ⟨service, found⟩ := mapM_all mapped member
    obtain ⟨named', methods'⟩ := declaredService_some.mp found
    exact ⟨service, ⟨e, member, named', methods'⟩, Scalar.str.inj (named'.symm.trans (key.trans named))⟩

end

end ScanApi.Declared
