import Mathlib.Data.List.Sort
import Mathlib.Data.String.Basic
import ScanApi.Partition
import ScanApi.Restarts
import ScanApi.Unicode

/-!
Migrations (`run_migrations` of `app/database.py`). Each start reads which versions
are recorded, and applies the files that are not, in the order of their names, each
in a transaction of its own that also records it. A start may be cut off at any
statement. However many are, the versions recorded are the first ones in that order
and their scripts are what was committed; a start that returns leaves none out.
-/
namespace ScanApi.Migrations
open ScanApi.Partition ScanApi.Restarts ScanApi.Unicode

/-! ### Scripts -/

abbrev Chars := List Char

/-- Where `str.splitlines` ends a line. -/
def isLineBreak (c : Char) : Bool :=
  c ∈ ['\n', '\r', '\x0b', '\x0c', '\x1c', '\x1d', '\x1e', '\x85', '\u2028', '\u2029']

/-- `text.splitlines()`, after `line` of the current line; `\r\n` is one break. -/
def splitLines (line : Chars) : Chars → List Chars
  | [] => if line = [] then [] else [line]
  | '\r' :: '\n' :: rest => line :: splitLines [] rest
  | c :: rest => if isLineBreak c then line :: splitLines [] rest else splitLines (line ++ [c]) rest

def upMark : Chars := "-- +goose Up".toList
def downMark : Chars := "-- +goose Down".toList

/-- The statements of a file: its Up section without lines that are only a comment. -/
def upSection (unicode : CharTables) (content : Chars) : Chars :=
  let sql := match splitOnce upMark content with
    | some (_, upPart) => strip unicode (((splitOnce downMark upPart).map Prod.fst).getD upPart)
    | none => content
  let kept := (splitLines [] sql).filter
    (fun line => !"--".toList.isPrefixOf (strip unicode line) || strip unicode line = [])
  strip unicode (['\n'].intercalate kept)

example : upSection latin1 "-- +goose Up\n-- a table\nCREATE TABLE t ();\n\n-- +goose Down\nDROP TABLE t;".toList =
    "CREATE TABLE t ();".toList := by decide +kernel

/-! ### Files -/

/-- A file `<version>.sql`; no file name has more than 255 characters. -/
structure Migration where
  version : String
  content : Chars
  named : version ≠ ""
  short : version.length ≤ 251

def Migration.name (file : Migration) : String := file.version ++ ".sql"

/-- `migrations_dir`, in the order in which `glob` finds its files. -/
structure Directory where
  files : List Migration
  distinct : (files.map Migration.name).Nodup

def Directory.sorted (dir : Directory) : List Migration := dir.files.insertionSort (fun a b => a.name ≤ b.name)

/-! ### The database -/

/-- The table `schema_migrations`; goose leaves one with other columns. -/
inductive Tracking
  | missing
  | goose
  | current (versions : List String)
deriving DecidableEq, Repr

/-- The tracking table, and the scripts that were run on the other tables. -/
structure Db where
  tracking : Tracking
  scripts : List Chars
deriving DecidableEq, Repr

inductive Refusal
  | undefinedTable
  | undefinedColumn
  | duplicateTable
  | uniqueViolation
  | valueTooLong
deriving DecidableEq, Repr

def createIfNotExists (db : Db) : Except Refusal (Unit × Db) :=
  match db.tracking with
  | .missing => .ok ((), { db with tracking := .current [] })
  | _ => .ok ((), db)

def create (db : Db) : Except Refusal (Unit × Db) :=
  match db.tracking with
  | .missing => .ok ((), { db with tracking := .current [] })
  | _ => .error .duplicateTable

def drop (db : Db) : Except Refusal (Unit × Db) :=
  match db.tracking with
  | .missing => .error .undefinedTable
  | _ => .ok ((), { db with tracking := .missing })

/-- Whether the table has a column `version`. -/
def colOk (db : Db) : Bool :=
  match db.tracking with
  | .current _ => true
  | _ => false

def selectVersions (db : Db) : Except Refusal (List String × Db) :=
  match db.tracking with
  | .missing => .error .undefinedTable
  | .goose => .error .undefinedColumn
  | .current versions => .ok (versions, db)

def insertVersion (version : String) (db : Db) : Except Refusal (Unit × Db) :=
  match db.tracking with
  | .missing => .error .undefinedTable
  | .goose => .error .undefinedColumn
  | .current versions =>
    if version ∈ versions then .error .uniqueViolation
    else if 255 < version.length then .error .valueTooLong
    else .ok ((), { db with tracking := .current (versions ++ [version]) })

def execute (sql : Chars) (db : Db) : Except Refusal (Unit × Db) := .ok ((), { db with scripts := db.scripts ++ [sql] })

/-! ### Runs -/

/-- The script of a file and the record of it. -/
def apply (version : String) (sql : Chars) : Tx Db Refusal Unit := do
  statement (execute sql)
  statement (insertVersion version)

/-- One round of the loop. -/
def applyFile (unicode : CharTables) (applied : List String) (file : Migration) : Tx Db Refusal Unit :=
  if file.version ∈ applied then pure ()
  else
    let sql := upSection unicode file.content
    -- An empty script is not recorded, so it is read again at the next start.
    if sql = [] then pure ()
    else transaction (apply file.version sql)

def runMigrations (unicode : CharTables) (dir : Directory) : Tx Db Refusal Unit := do
  statement createIfNotExists
  let ok ← query colOk
  if !ok then do
    statement drop
    statement create
  let applied ← statement selectVersions
  dir.sorted.forM (applyFile unicode applied)

/-! ### What is to be recorded -/

/-- The version of a file and its script, unless the script is empty. -/
def script (unicode : CharTables) (file : Migration) : Option (String × Chars) :=
  let sql := upSection unicode file.content
  if sql = [] then none else some (file.version, sql)

/-- The files with a script, in their order. -/
def planned (unicode : CharTables) (dir : Directory) : List (String × Chars) := dir.sorted.filterMap (script unicode)

/-- These versions are recorded, and exactly their scripts were run, in this order. -/
def recorded (entries : List (String × Chars)) : Db := ⟨.current (entries.map Prod.fst), entries.map Prod.snd⟩

variable {unicode : CharTables} {dir : Directory} {applied : List String} {file : Migration}
  {done : List (String × Chars)} {conn : Conn Db}

theorem apply_ends {version : String} {sql : Chars} {ended : Conn Db} {u : Unit} (before : conn.db = recorded done)
    (ran : Prog.exec (apply version sql) conn = (.ok u, ended)) : ended.db = recorded (done ++ [(version, sql)]) := by
  obtain ⟨_, middle, first, second⟩ := Prog.exec_bind_ok.mp ran
  have executed := (statement_ends (execute sql) conn).2 ()
  rw [first] at executed
  have inserted := (statement_ends (insertVersion version) middle).2 ()
  rw [second] at inserted
  have after := executed rfl
  simp only [execute, before, recorded, Except.ok.injEq, Prod.mk.injEq, true_and] at after
  have final := inserted rfl
  rw [← after] at final
  simp only [insertVersion] at final
  split at final
  · cases final
  · split at final
    · cases final
    · simp only [Except.ok.injEq, Prod.mk.injEq, true_and] at final
      rw [← final]
      simp [recorded]

theorem version_of_script {entry : String × Chars} (found : script unicode file = some entry) :
    entry.1 = file.version := by
  dsimp only [script] at found
  split at found
  · cases found
  · rw [← Option.some.inj found]

/-- What the loop is to apply: the files that are not recorded. -/
def pending (unicode : CharTables) (applied : List String) (files : List Migration) : List (String × Chars) :=
  (files.filter (fun file => file.version ∉ applied)).filterMap (script unicode)

theorem pending_cons (unicode : CharTables) (applied : List String) (file : Migration) (files : List Migration) :
    pending unicode applied (file :: files) =
      (if file.version ∈ applied then [] else (script unicode file).toList) ++ pending unicode applied files := by
  unfold pending
  by_cases known : file.version ∈ applied
  · simp [known]
  · cases found : script unicode file <;> simp [known, found]

/-- A round applies its file whole, or changes nothing; it returns only if nothing of it is left to apply. -/
theorem applyFile_ends (unicode : CharTables) (applied : List String) (file : Migration) (before : conn.db = recorded done) :
    ∃ more rest, (if file.version ∈ applied then [] else (script unicode file).toList) = more ++ rest ∧
      (Prog.exec (applyFile unicode applied file) conn).2.db = recorded (done ++ more) ∧
      ((Prog.exec (applyFile unicode applied file) conn).1 = .ok () → rest = []) := by
  unfold applyFile script
  by_cases known : file.version ∈ applied
  · simp only [known, if_true]
    exact ⟨[], [], rfl, by rw [List.append_nil]; exact before, fun _ => rfl⟩
  · simp only [known, if_false]
    by_cases empty : upSection unicode file.content = []
    · simp only [empty, if_true]
      exact ⟨[], [], rfl, by rw [List.append_nil]; exact before, fun _ => rfl⟩
    · simp only [empty, if_false, Option.toList_some]
      rcases transaction_ends (apply file.version (upSection unicode file.content)) conn with
        ⟨⟨failure, raised⟩, kept⟩ | ⟨begun, ended, _, same, ran, left⟩
      · refine ⟨[], _, rfl, by rw [List.append_nil, kept]; exact before, fun returned => ?_⟩
        rw [raised] at returned
        cases returned
      · refine ⟨_, [], (List.append_nil _).symm, ?_, fun _ => rfl⟩
        rw [left]
        exact apply_ends (same.trans before) ran

theorem exec_round (unicode : CharTables) (applied : List String) (file : Migration) (files : List Migration)
    (conn : Conn Db) :
    Prog.exec ((file :: files).forM (applyFile unicode applied)) conn =
      Prog.exec (applyFile unicode applied file >>= fun _ => files.forM (applyFile unicode applied)) conn := rfl

/-- The loop applies the files in order, up to one of them; it returns only after the last. -/
theorem forM_ends (unicode : CharTables) (applied : List String) (files : List Migration)
    (before : conn.db = recorded done) :
    ∃ more rest, pending unicode applied files = more ++ rest ∧
      (Prog.exec (files.forM (applyFile unicode applied)) conn).2.db = recorded (done ++ more) ∧
      ((Prog.exec (files.forM (applyFile unicode applied)) conn).1 = .ok () → rest = []) := by
  induction files generalizing conn done with
  | nil => exact ⟨[], [], rfl, by rw [List.append_nil]; exact before, fun _ => rfl⟩
  | cons file files ih =>
    obtain ⟨more, rest, parts, left, complete⟩ := applyFile_ends unicode applied file before
    rw [pending_cons, parts, exec_round, Prog.exec_bind]
    rcases ran : Prog.exec (applyFile unicode applied file) conn with ⟨failure | u, next⟩
    · rw [ran] at left
      exact ⟨more, rest ++ pending unicode applied files, by rw [List.append_assoc], left, fun returned => nomatch returned⟩
    · rw [ran] at left complete
      obtain rfl := complete rfl
      obtain ⟨more', rest', parts', left', complete'⟩ := ih left
      exact ⟨more ++ more', rest', by rw [parts']; simp, by rw [left', List.append_assoc], complete'⟩

/-! ### Without a fault -/

theorem apply_steady {version : String} {sql : Chars} (new : version ∉ done.map Prod.fst) (short : version.length ≤ 251) :
    Prog.exec (apply version sql) ⟨recorded done, none⟩ = (.ok (), ⟨recorded (done ++ [(version, sql)]), none⟩) := by
  have executed : execute sql (recorded done) = .ok ((), ⟨.current (done.map Prod.fst), done.map Prod.snd ++ [sql]⟩) := rfl
  have inserted : insertVersion version ⟨.current (done.map Prod.fst), done.map Prod.snd ++ [sql]⟩ =
      .ok ((), recorded (done ++ [(version, sql)])) := by
    have room : ¬ 255 < version.length := by omega
    simp only [insertVersion, new, room, if_false]
    simp [recorded]
  unfold apply
  rw [Prog.exec_bind, statement_steady executed]
  exact statement_steady inserted

theorem applyFile_steady (unicode : CharTables) (applied : List String) (file : Migration)
    (new : file.version ∉ applied → file.version ∉ done.map Prod.fst) :
    Prog.exec (applyFile unicode applied file) ⟨recorded done, none⟩ =
      (.ok (), ⟨recorded (done ++ (if file.version ∈ applied then [] else (script unicode file).toList)), none⟩) := by
  unfold applyFile script
  by_cases known : file.version ∈ applied
  · simp [known]
  · by_cases empty : upSection unicode file.content = []
    · simp [known, empty]
    · simp only [known, empty, if_false, Option.toList_some]
      exact transaction_steady (apply_steady (new known) file.short)

theorem forM_steady (unicode : CharTables) (applied : List String) (files : List Migration)
    (distinct : (files.map Migration.version).Nodup)
    (new : ∀ file ∈ files, file.version ∉ applied → file.version ∉ done.map Prod.fst) :
    Prog.exec (files.forM (applyFile unicode applied)) ⟨recorded done, none⟩ =
      (.ok (), ⟨recorded (done ++ pending unicode applied files), none⟩) := by
  induction files generalizing done with
  | nil => rw [pending, List.filter_nil, List.filterMap_nil, List.append_nil]; rfl
  | cons file files ih =>
    obtain ⟨other, distinct⟩ := List.nodup_cons.mp distinct
    rw [exec_round, Prog.exec_bind, applyFile_steady unicode applied file (new file List.mem_cons_self)]
    dsimp only
    rw [ih distinct, pending_cons, List.append_assoc]
    intro later member unknown
    rw [List.map_append, List.mem_append, not_or]
    refine ⟨new later (List.mem_cons_of_mem _ member) unknown, ?_⟩
    intro just
    split at just
    · cases just
    · obtain ⟨entry, found, same⟩ := List.mem_map.mp just
      have named := version_of_script (Option.mem_toList.mp found)
      exact other (List.mem_map.mpr ⟨later, member, same.symm.trans named⟩)

/-! ### Starts -/

theorem sorted_distinct (dir : Directory) : (dir.sorted.map Migration.version).Nodup := by
  have names : (dir.sorted.map Migration.name).Nodup :=
    ((List.perm_insertionSort _ dir.files).map Migration.name).nodup_iff.mpr dir.distinct
  have suffixed : dir.sorted.map Migration.name = (dir.sorted.map Migration.version).map (· ++ ".sql") := by
    rw [List.map_map]; rfl
  rw [suffixed] at names
  exact names.of_map _

theorem pending_eq_filter (unicode : CharTables) (applied : List String) (files : List Migration) :
    pending unicode applied files = (files.filterMap (script unicode)).filter (fun entry => entry.1 ∉ applied) := by
  induction files with
  | nil => rfl
  | cons file files ih =>
    rw [pending_cons, ih]
    cases found : script unicode file with
    | none => simp [found]
    | some entry =>
      have same := version_of_script found
      by_cases known : file.version ∈ applied <;> simp [found, same, known]

theorem planned_distinct (unicode : CharTables) (dir : Directory) : ((planned unicode dir).map Prod.fst).Nodup := by
  refine List.Nodup.sublist ?_ (sorted_distinct dir)
  unfold planned
  induction dir.sorted with
  | nil => exact .slnil
  | cons file files ih =>
    cases found : script unicode file with
    | none => simpa [found] using ih.cons file.version
    | some entry =>
      have same := version_of_script found
      simpa [found, same] using ih

/-- What is left to apply after the first of the planned files. -/
theorem pending_after {rest : List (String × Chars)} (parts : planned unicode dir = done ++ rest) :
    pending unicode (done.map Prod.fst) dir.sorted = rest := by
  have distinct := planned_distinct unicode dir
  rw [parts, List.map_append] at distinct
  rw [pending_eq_filter]
  change (planned unicode dir).filter _ = rest
  rw [parts, List.filter_append]
  have old : done.filter (fun entry => entry.1 ∉ done.map Prod.fst) = [] := by
    rw [List.filter_eq_nil_iff]
    intro entry member
    simpa using ⟨entry.2, member⟩
  have new : rest.filter (fun entry => entry.1 ∉ done.map Prod.fst) = rest := by
    rw [List.filter_eq_self]
    intro entry member
    have apart : ∀ version ∈ done.map Prod.fst, version ∉ rest.map Prod.fst := List.disjoint_of_nodup_append distinct
    have inside : entry.1 ∈ rest.map Prod.fst := List.mem_map_of_mem member
    exact decide_eq_true (fun old => apart _ old inside)
  rw [old, new, List.nil_append]

/-- A start applies the next of the planned files in order, up to one of them; it returns only after the last. -/
theorem runMigrations_ends (unicode : CharTables) (dir : Directory) {rest : List (String × Chars)}
    (parts : planned unicode dir = done ++ rest) (before : conn.db = recorded done) :
    ∃ more left, rest = more ++ left ∧
      (Prog.exec (runMigrations unicode dir) conn).2.db = recorded (done ++ more) ∧
      ((Prog.exec (runMigrations unicode dir) conn).1 = .ok () → left = []) := by
  -- A start that fails before the loop leaves everything to the next.
  have nothing {failure : Failure Refusal} {stopped : Conn Db} (kept : stopped.db = recorded done) :
      ∃ more left, rest = more ++ left ∧ stopped.db = recorded (done ++ more) ∧
        ((.error failure : Except (Failure Refusal) Unit) = .ok () → left = []) :=
    ⟨[], rest, rfl, by rw [List.append_nil]; exact kept, fun returned => nomatch returned⟩
  have there : createIfNotExists conn.db = .ok ((), conn.db) := by rw [before]; rfl
  have first := statement_reads there
  unfold runMigrations
  rw [Prog.exec_bind]
  rcases created : Prog.exec (statement createIfNotExists) conn with ⟨failure | _, conn₁⟩ <;>
    rw [created] at first <;> have kept := first.1.trans before
  · exact nothing kept
  dsimp only at kept ⊢
  have second := @statement_reads _ Refusal _ (fun db => .ok (colOk db, db)) conn₁ _ rfl
  rw [Prog.exec_bind, query]
  rcases checked : Prog.exec (statement (fun db => .ok (colOk db, db))) conn₁ with ⟨failure | ok, conn₂⟩ <;>
    rw [checked] at second <;> have kept₂ := second.1.trans kept
  · exact nothing kept₂
  dsimp only at kept₂ ⊢
  have columns : ok = true := by
    rw [second.2 ok rfl, kept]
    rfl
  have versions : selectVersions conn₂.db = .ok (done.map Prod.fst, conn₂.db) := by rw [kept₂]; rfl
  have third := statement_reads versions
  rw [columns, Bool.not_true, if_neg Bool.false_ne_true, Prog.exec_bind]
  rcases fetched : Prog.exec (statement selectVersions) conn₂ with ⟨failure | applied, conn₃⟩ <;>
    rw [fetched] at third <;> have kept₃ := third.1.trans kept₂
  · exact nothing kept₃
  dsimp only at kept₃ ⊢
  obtain rfl := third.2 applied rfl
  rw [← pending_after parts]
  exact forM_ends unicode (done.map Prod.fst) dir.sorted kept₃

theorem runMigrations_steady (unicode : CharTables) (dir : Directory) {rest : List (String × Chars)}
    (parts : planned unicode dir = done ++ rest) :
    Prog.exec (runMigrations unicode dir) ⟨recorded done, none⟩ = (.ok (), ⟨recorded (planned unicode dir), none⟩) := by
  have there : createIfNotExists (recorded done) = .ok ((), recorded done) := rfl
  have columns : colOk (recorded done) = true := rfl
  have versions : selectVersions (recorded done) = .ok (done.map Prod.fst, recorded done) := rfl
  unfold runMigrations
  rw [Prog.exec_bind, statement_steady there]
  dsimp only
  rw [Prog.exec_bind, query_steady, columns]
  dsimp only
  rw [Bool.not_true, if_neg Bool.false_ne_true, Prog.exec_bind, statement_steady versions]
  dsimp only
  rw [forM_steady unicode _ _ (sorted_distinct dir) (fun _ _ new => new), pending_after parts, parts]

/-- The first of the planned files, in their order, are recorded, and just their scripts were run. -/
def InOrder (unicode : CharTables) (dir : Directory) (db : Db) : Prop :=
  ∃ done rest, planned unicode dir = done ++ rest ∧ db = recorded done

theorem inOrder_start {unicode : CharTables} {dir : Directory} {conn : Conn Db} (order : InOrder unicode dir conn.db) :
    InOrder unicode dir (Prog.exec (runMigrations unicode dir) conn).2.db := by
  obtain ⟨done, rest, parts, before⟩ := order
  obtain ⟨more, left, split, ended, -⟩ := runMigrations_ends unicode dir parts before
  exact ⟨done ++ more, left, by rw [parts, split, List.append_assoc], ended⟩

theorem inOrder_restarts (unicode : CharTables) (dir : Directory) (faults : List (Option Fault)) :
    InOrder unicode dir (restarts (runMigrations unicode dir) (recorded []) faults) :=
  restarts_keep (fun _ => inOrder_start) ⟨[], planned unicode dir, rfl, rfl⟩ faults

/-- After any number of starts, each cut off anywhere, the migrations are applied once and in order up to one of
    them; a start that returns applies all, and one that is not cut off returns. -/
theorem migrations_once (unicode : CharTables) (dir : Directory) (faults : List (Option Fault)) :
    InOrder unicode dir (restarts (runMigrations unicode dir) (recorded []) faults) ∧
      (∀ fault ended,
        Prog.exec (runMigrations unicode dir) ⟨restarts (runMigrations unicode dir) (recorded []) faults, fault⟩ =
            (.ok (), ended) →
          ended.db = recorded (planned unicode dir)) ∧
      Prog.exec (runMigrations unicode dir) ⟨restarts (runMigrations unicode dir) (recorded []) faults, none⟩ =
        (.ok (), ⟨recorded (planned unicode dir), none⟩) := by
  refine ⟨inOrder_restarts unicode dir faults, ?_⟩
  obtain ⟨done, rest, parts, now⟩ := inOrder_restarts unicode dir faults
  rw [now]
  refine ⟨?_, runMigrations_steady unicode dir parts⟩
  intro fault ended ran
  obtain ⟨more, left, split, after, complete⟩ := @runMigrations_ends done ⟨recorded done, fault⟩ unicode dir _ parts rfl
  rw [ran] at after complete
  obtain rfl := complete rfl
  rw [after, parts, split, List.append_nil]

end ScanApi.Migrations
