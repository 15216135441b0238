/-
`CatalogMigrator.java` and the constructor of `IcebergWriter.java`.

A catalog maps table identifiers to the location of their current metadata
file; a key tells which catalog a configuration opens, so two configurations
can open one catalog. What Iceberg and the JDBC or REST service answer is a
parameter (`Services`).

* `migrate`, `IcebergWriter.new` — the two code paths, over all catalogs.
* `HandsOver` — what a migration is for: the loader goes on with its own table.
* `migrate_hands_over_iff` — a migration that succeeds hands over exactly when
  the target configuration names the source's table (`TargetNamesSourceTable`).
* `otherTableMigration_lost` — a successful migration that does not.
* `CatalogMigrator.main_names_source_table` — the tool, from its environment.
-/

import Mathlib.Logic.Function.Basic
import Lakehouse.Catalog.Config
import Lakehouse.Lib.Effects

namespace Lakehouse.Catalog

open Effects

structure TableIdentifier where
  namespace_ : String
  name : String
deriving DecidableEq, Repr

/-- `TableIdentifier.of(Namespace.of(namespace), name)`: a namespace level holds
no null character, and a table name is not empty. -/
def TableIdentifier.of (namespace_ name : String) : Except Failure TableIdentifier :=
  if '\x00' ∈ namespace_.toList then
    .error (.illegalArgument "Cannot create a namespace with the null-byte character")
  else if name.isEmpty then .error (.illegalArgument "Invalid table name: null or empty")
  else .ok ⟨namespace_, name⟩

def TableIdentifier.text (id : TableIdentifier) : String := id.namespace_ ++ "." ++ id.name

/-- The namespaces that exist, and the tables with the location of their current
metadata file. -/
structure Contents where
  namespaces : List String
  tables : TableIdentifier → Option String

/-- The contents of every catalog. -/
abbrev Catalogs (Key : Type) := Key → Contents

/-- What the catalog libraries and services decide. -/
structure Services (Key : Type) where
  driverPresent : String → Bool
  connect : CatalogFactory.Opening → Except Failure Key
  /-- The catalog is a `SupportsNamespaces`. -/
  supportsNamespaces : Key → Bool
  /-- Its tables are `HasTableOperations`. -/
  hasTableOperations : Key → Bool
  /-- The first metadata file of a table that is created. -/
  initialMetadata : Key → TableIdentifier → String

variable {Key : Type} [DecidableEq Key] (services : Services Key)

abbrev Tool (Key α : Type) := Call (Catalogs Key) Failure α

/-- `CatalogFactory.open`. -/
def CatalogFactory.open_ (config : CatalogConfig) : Except Failure Key :=
  CatalogFactory.opening services.driverPresent config >>= services.connect

/-! ### The calls of a catalog -/

/-- A computation that changes no catalog. -/
def lift {α : Type} (result : Except Failure α) : Tool Key α := Call.of fun s => (result, s)

def namespaceExists (catalog : Key) (namespace_ : String) : Tool Key Bool :=
  Call.of fun s => (.ok ((s catalog).namespaces.contains namespace_), s)

def Contents.addNamespace (contents : Contents) (namespace_ : String) : Contents :=
  { contents with namespaces := namespace_ :: contents.namespaces }

def createNamespace (catalog : Key) (namespace_ : String) : Tool Key Unit :=
  Call.of fun s => (.ok (), Function.update s catalog ((s catalog).addNamespace namespace_))

def tableExists (catalog : Key) (id : TableIdentifier) : Tool Key Bool :=
  Call.of fun s => (.ok ((s catalog).tables id).isSome, s)

/-- The table, as the location of its current metadata file. -/
def loadTable (catalog : Key) (id : TableIdentifier) : Tool Key String :=
  Call.of fun s =>
    match (s catalog).tables id with
    | some location => (.ok location, s)
    | none => (.error (.catalog ("Table does not exist: " ++ id.text)), s)

/-- `contents` with `id` bound to a metadata file. -/
def Contents.bind (contents : Contents) (id : TableIdentifier) (location : String) : Contents :=
  { contents with tables := Function.update contents.tables id (some location) }

/-- Both `registerTable` and `createTable` bind an identifier that is free. -/
def bindTable (catalog : Key) (id : TableIdentifier) (location : String) : Tool Key String :=
  Call.of fun s =>
    match (s catalog).tables id with
    | some _ => (.error (.catalog ("Table already exists: " ++ id.text)), s)
    | none => (.ok location, Function.update s catalog ((s catalog).bind id location))

/-- `if (!namespaces.namespaceExists(ns)) namespaces.createNamespace(ns)`. -/
def ensureNamespace (catalog : Key) (namespace_ : String) : Tool Key Unit := do
  if ← namespaceExists catalog namespace_ then pure () else createNamespace catalog namespace_

/-! ### `CatalogMigrator` -/

namespace CatalogMigrator

def NAMESPACE : String := "alpaca"

def TABLE : TableIdentifier := ⟨NAMESPACE, "bars_raw"⟩

/-- `CatalogMigrator.migrate`; the value is the line it prints. -/
def migrate (sourceConfig targetConfig : CatalogConfig) : Tool Key String := do
  let source ← lift (CatalogFactory.open_ services sourceConfig)
  let target ← lift (CatalogFactory.open_ services targetConfig)
  if ← tableExists target TABLE then
    throw (.illegalState ("target catalog already contains " ++ TABLE.text))
  else if !services.supportsNamespaces target then
    throw (.illegalArgument "target catalog does not support namespaces")
  else do
    ensureNamespace target NAMESPACE
    let metadataLocation ← loadTable source TABLE
    if !services.hasTableOperations source then
      throw (.illegalState "source table does not expose Iceberg metadata location")
    else do
      let _ ← bindTable target TABLE metadataLocation
      pure ("catalog_migration=registered table=" ++ TABLE.text ++ " metadata=" ++ metadataLocation)

/-- `CatalogMigrator.main`. -/
def main (localWarehouse : String) (environment : List (String × String)) (args : List String) :
    Tool Key String :=
  if args.length ≠ 0 then
    throw (.illegalArgument
      "CatalogMigrator reads ICEBERG_SOURCE_* and ICEBERG_* environment variables")
  else do
    let source ← lift (CatalogConfig.from_ localWarehouse environment "ICEBERG_SOURCE_")
    let target ← lift (CatalogConfig.from_ localWarehouse environment "ICEBERG_")
    migrate services source target

end CatalogMigrator

/-! ### `IcebergWriter` -/

/-- The table an `IcebergWriter` appends to, and whether its constructor made it. -/
structure OpenedTable where
  created : Bool
  metadataLocation : String
deriving DecidableEq, Repr

/-- The constructor of `IcebergWriter`. -/
def IcebergWriter.new (config : CatalogConfig) : Tool Key OpenedTable := do
  let catalog ← lift (CatalogFactory.open_ services config)
  if !services.supportsNamespaces catalog then
    throw (.illegalArgument "configured catalog does not support namespaces")
  else do
    let id ← lift (TableIdentifier.of config.namespace_ config.table)
    ensureNamespace catalog config.namespace_
    if ← tableExists catalog id then
      return ⟨false, ← loadTable catalog id⟩
    else return ⟨true, ← bindTable catalog id (services.initialMetadata catalog id)⟩

/-! ### What a success says -/

section Success

variable {services : Services Key} {s t : Catalogs Key} {catalog : Key}
  {id : TableIdentifier} {location : String}

omit [DecidableEq Key] in
@[simp] theorem succeeds_lift {α : Type} {result : Except Failure α} {a : α} :
    Succeeds (lift result : Tool Key α) s a t ↔ result = .ok a ∧ s = t := by
  simp [lift]

omit [DecidableEq Key] in
@[simp] theorem succeeds_tableExists {found : Bool} :
    Succeeds (tableExists catalog id) s found t ↔
      ((s catalog).tables id).isSome = found ∧ s = t := by
  simp [tableExists]

omit [DecidableEq Key] in
@[simp] theorem succeeds_loadTable :
    Succeeds (loadTable catalog id) s location t ↔
      (s catalog).tables id = some location ∧ s = t := by
  simp only [loadTable, succeeds_of]
  split <;> simp_all

/-- A binding goes to a free identifier and changes nothing else. -/
@[simp] theorem succeeds_bindTable {result : String} :
    Succeeds (bindTable catalog id location) s result t ↔ (s catalog).tables id = none ∧
      location = result ∧ Function.update s catalog ((s catalog).bind id location) = t := by
  simp only [bindTable, succeeds_of]
  split <;> simp_all

/-- Whatever namespaces there were, no table is touched. -/
theorem ensureNamespace_tables (s : Catalogs Key) (catalog : Key) (namespace_ : String) : ∃ t : Catalogs Key,
    (∀ key, (t key).tables = (s key).tables) ∧
      ∀ t', Succeeds (ensureNamespace catalog namespace_) s () t' ↔ t = t' := by
  cases hfound : (s catalog).namespaces.contains namespace_ with
  | true =>
      refine ⟨s, fun _ => rfl, fun t' => ?_⟩
      simp only [ensureNamespace, namespaceExists, succeeds_bind, succeeds_of, hfound]
      simp
  | false =>
      refine ⟨Function.update s catalog ((s catalog).addNamespace namespace_), ?_, fun t' => ?_⟩
      · intro key
        by_cases hkey : key = catalog
        · subst hkey
          simp [Contents.addNamespace]
        · simp [hkey]
      · simp only [ensureNamespace, namespaceExists, createNamespace, succeeds_bind, succeeds_of,
          hfound]
        simp

/-- A successful migration found the table in the source, nothing under its name
in the target, and bound that name there and nowhere else. -/
theorem CatalogMigrator.migrate_cases {sourceConfig targetConfig : CatalogConfig} {line : String}
    (h : Succeeds (migrate services sourceConfig targetConfig) s line t) :
    ∃ source target location,
      CatalogFactory.open_ services sourceConfig = .ok source ∧
      CatalogFactory.open_ services targetConfig = .ok target ∧
      services.supportsNamespaces target = true ∧
      (s source).tables TABLE = some location ∧ (s target).tables TABLE = none ∧
      ∀ id, (t target).tables id = if id = TABLE then some location else (s target).tables id := by
  simp only [migrate, succeeds_bind, succeeds_lift] at h
  obtain ⟨source, _, ⟨hsource, rfl⟩, target, _, ⟨htarget, rfl⟩, found, _, hfound, h⟩ := h
  obtain ⟨hfree, rfl⟩ := succeeds_tableExists.mp hfound
  cases found with
  | true => simp at h
  | false =>
      obtain ⟨named, htables, hnamed⟩ :=
        ensureNamespace_tables s target NAMESPACE
      simp only [Bool.false_eq_true, if_false, succeeds_ite, succeeds_throw, succeeds_bind,
        succeeds_pure, succeeds_loadTable, succeeds_bindTable] at h
      split at h
      · exact h.elim
      · rename_i hsupports
        obtain ⟨_, _, hensure, location, _, ⟨hlocation, rfl⟩, h⟩ := h
        obtain rfl := (hnamed _).mp hensure
        split at h
        · exact h.elim
        · obtain ⟨_, _, ⟨hnone, rfl, rfl⟩, -, rfl⟩ := h
          rw [htables] at hlocation hnone
          refine ⟨source, target, location, hsource, htarget, by simpa using hsupports,
            hlocation, hnone, fun id => ?_⟩
          simp [Contents.bind, htables, Function.update_apply]

/-- The writer loads, and does not create, a table with this metadata. -/
def Loads (services : Services Key) (config : CatalogConfig) (s : Catalogs Key)
    (location : String) : Prop :=
  ∃ t, Succeeds (IcebergWriter.new services config) s ⟨false, location⟩ t

theorem loads_iff {config : CatalogConfig} : Loads services config s location ↔
    ∃ catalog id, CatalogFactory.open_ services config = .ok catalog ∧
      services.supportsNamespaces catalog = true ∧
      TableIdentifier.of config.namespace_ config.table = .ok id ∧
      (s catalog).tables id = some location := by
  simp only [Loads, IcebergWriter.new, succeeds_bind, succeeds_lift]
  constructor
  · rintro ⟨t, catalog, _, ⟨hcatalog, rfl⟩, h⟩
    cases hsupports : services.supportsNamespaces catalog with
    | false => simp [hsupports] at h
    | true =>
        obtain ⟨named, htables, hnamed⟩ := ensureNamespace_tables s catalog config.namespace_
        simp only [hsupports, Bool.not_true, Bool.false_eq_true, if_false, succeeds_bind,
          succeeds_lift] at h
        obtain ⟨id, _, ⟨hid, rfl⟩, _, _, hensure, found, _, hfound, h⟩ := h
        obtain rfl := (hnamed _).mp hensure
        obtain ⟨-, rfl⟩ := succeeds_tableExists.mp hfound
        cases found with
        | false => simp at h
        | true =>
            simp only [if_true, bind_pure_comp, succeeds_map, succeeds_loadTable] at h
            obtain ⟨_, ⟨hlocation, rfl⟩, hopened⟩ := h
            cases hopened
            rw [htables] at hlocation
            exact ⟨catalog, id, hcatalog, hsupports, hid, hlocation⟩
  · rintro ⟨catalog, id, hcatalog, hsupports, hid, hlocation⟩
    obtain ⟨named, htables, hnamed⟩ := ensureNamespace_tables s catalog config.namespace_
    refine ⟨named, catalog, s, ⟨hcatalog, rfl⟩, ?_⟩
    simp only [hsupports, Bool.not_true, Bool.false_eq_true, if_false, succeeds_bind,
      succeeds_lift]
    refine ⟨id, s, ⟨hid, rfl⟩, (), named, (hnamed _).mpr rfl, true, named, ?_, ?_⟩
    · simp [htables, hlocation]
    · simp [htables, hlocation]

/-- After the migration the loader on the target goes on with the table the
loader on the source had. -/
def HandsOver (services : Services Key) (sourceConfig targetConfig : CatalogConfig)
    (before after : Catalogs Key) : Prop :=
  ∃ location, Loads services sourceConfig before location ∧
    Loads services targetConfig after location

/-- The configured table of the source is one the target configuration names after
the migration: `alpaca.bars_raw`, if it is that table, or one that was under the
target's name before. -/
def TargetNamesSourceTable (services : Services Key) (sourceConfig targetConfig : CatalogConfig)
    (before : Catalogs Key) : Prop :=
  ∃ source target sourceId targetId location,
    CatalogFactory.open_ services sourceConfig = .ok source ∧
    CatalogFactory.open_ services targetConfig = .ok target ∧
    services.supportsNamespaces source = true ∧
    TableIdentifier.of sourceConfig.namespace_ sourceConfig.table = .ok sourceId ∧
    TableIdentifier.of targetConfig.namespace_ targetConfig.table = .ok targetId ∧
    (before source).tables sourceId = some location ∧
    (targetId = CatalogMigrator.TABLE ∧
        (before source).tables CatalogMigrator.TABLE = some location ∨
      (before target).tables targetId = some location)

/-- A migration that succeeds hands over exactly when the target configuration
names the source's table. -/
theorem migrate_hands_over_iff {sourceConfig targetConfig : CatalogConfig} {line : String}
    (h : Succeeds (CatalogMigrator.migrate services sourceConfig targetConfig) s line t) :
    HandsOver services sourceConfig targetConfig s t ↔
      TargetNamesSourceTable services sourceConfig targetConfig s := by
  obtain ⟨source, target, moved, hsource, htarget, hsupports, hmoved, hfree, hafter⟩ :=
    CatalogMigrator.migrate_cases h
  constructor
  · rintro ⟨location, hsourceLoads, htargetLoads⟩
    obtain ⟨source', sourceId, hsource', hnamespaces, hsourceId, hshared⟩ :=
      loads_iff.mp hsourceLoads
    obtain ⟨target', targetId, htarget', -, htargetId, hloaded⟩ := loads_iff.mp htargetLoads
    obtain rfl : target = target' := by simpa [htarget] using htarget'
    refine ⟨source', target, sourceId, targetId, location, hsource', htarget, hnamespaces,
      hsourceId, htargetId, hshared, ?_⟩
    rw [hafter] at hloaded
    split at hloaded
    · rename_i hname
      cases hloaded
      obtain rfl : source = source' := by simpa [hsource] using hsource'
      exact .inl ⟨hname, hmoved⟩
    · exact .inr hloaded
  · rintro ⟨source', target', sourceId, targetId, location, hsource', htarget', hnamespaces,
      hsourceId, htargetId, hshared, hnames⟩
    obtain rfl : source = source' := by simpa [hsource] using hsource'
    obtain rfl : target = target' := by simpa [htarget] using htarget'
    refine ⟨location, loads_iff.mpr ⟨source, sourceId, hsource, hnamespaces, hsourceId, hshared⟩,
      loads_iff.mpr ⟨target, targetId, htarget, hsupports, htargetId, ?_⟩⟩
    rw [hafter]
    rcases hnames with ⟨hname, hsame⟩ | hbound
    · rw [if_pos hname, ← hmoved, hsame]
    · have hname : targetId ≠ CatalogMigrator.TABLE := by
        rintro rfl
        simp [hfree] at hbound
      rw [if_neg hname, hbound]

/-! ### The tool -/

/-- A run of the tool that succeeds is a migration between the two catalogs that the
environment names. -/
theorem CatalogMigrator.main_succeeds_iff {localWarehouse : String}
    {environment : List (String × String)} {args : List String} {line : String} :
    Succeeds (main services localWarehouse environment args) s line t ↔
      args = [] ∧ ∃ sourceConfig targetConfig,
        CatalogConfig.from_ localWarehouse environment "ICEBERG_SOURCE_" = .ok sourceConfig ∧
        CatalogConfig.from_ localWarehouse environment "ICEBERG_" = .ok targetConfig ∧
        Succeeds (migrate services sourceConfig targetConfig) s line t := by
  unfold main
  cases args with
  | cons arg args => simp
  | nil =>
      simp only [List.length_nil, ne_eq, not_true_eq_false, if_false, succeeds_bind, succeeds_lift,
        true_and]
      constructor
      · rintro ⟨sourceConfig, _, ⟨hsource, rfl⟩, targetConfig, _, ⟨htarget, rfl⟩, h⟩
        exact ⟨sourceConfig, targetConfig, hsource, htarget, h⟩
      · rintro ⟨sourceConfig, targetConfig, hsource, htarget, h⟩
        exact ⟨sourceConfig, s, ⟨hsource, rfl⟩, targetConfig, s, ⟨htarget, rfl⟩, h⟩

/-- The environment names no table of its own. -/
def DefaultTable (environment : List (String × String)) (keyStart : String) : Prop :=
  environment.lookup (keyStart ++ "NAMESPACE") = none ∧
    environment.lookup (keyStart ++ "TABLE") = none

theorem DefaultTable.identifier {localWarehouse keyStart : String}
    {environment : List (String × String)} {config : CatalogConfig}
    (hdefault : DefaultTable environment keyStart)
    (h : CatalogConfig.from_ localWarehouse environment keyStart = .ok config) :
    TableIdentifier.of config.namespace_ config.table = .ok CatalogMigrator.TABLE := by
  obtain ⟨-, -, hnamespace, htable⟩ := CatalogConfig.from_eq_ok h
  rw [hnamespace, htable, CatalogConfig.getOrDefault, CatalogConfig.getOrDefault, hdefault.1,
    hdefault.2]
  rfl

/-- Where the environment names no other table, the tool moves the loader's own, if the
source catalog is one that a loader can use. -/
theorem CatalogMigrator.main_names_source_table {localWarehouse : String}
    {environment : List (String × String)} {args : List String} {line : String}
    (h : Succeeds (main services localWarehouse environment args) s line t)
    (hsourceTable : DefaultTable environment "ICEBERG_SOURCE_")
    (htargetTable : DefaultTable environment "ICEBERG_") :
    ∃ sourceConfig targetConfig source,
      CatalogConfig.from_ localWarehouse environment "ICEBERG_SOURCE_" = .ok sourceConfig ∧
      CatalogConfig.from_ localWarehouse environment "ICEBERG_" = .ok targetConfig ∧
      CatalogFactory.open_ services sourceConfig = .ok source ∧
      (TargetNamesSourceTable services sourceConfig targetConfig s ↔
        services.supportsNamespaces source = true) := by
  obtain ⟨-, sourceConfig, targetConfig, hsourceConfig, htargetConfig, hmigrate⟩ :=
    main_succeeds_iff.mp h
  obtain ⟨source, target, location, hsource, htarget, -, hmoved, -, -⟩ := migrate_cases hmigrate
  refine ⟨sourceConfig, targetConfig, source, hsourceConfig, htargetConfig, hsource, ?_, ?_⟩
  · rintro ⟨source', _, _, _, _, hsource', _, hnamespaces, _⟩
    obtain rfl := Except.ok.inj (hsource.symm.trans hsource')
    exact hnamespaces
  · intro hnamespaces
    exact ⟨source, target, TABLE, TABLE, location, hsource, htarget, hnamespaces,
      hsourceTable.identifier hsourceConfig, htargetTable.identifier htargetConfig, hmoved,
      .inl ⟨rfl, hmoved⟩⟩

end Success

/-- Catalogs told apart by how they are opened. -/
def sampleServices : Services CatalogFactory.Opening where
  driverPresent _ := true
  connect := .ok
  supportsNamespaces _ := true
  hasTableOperations _ := true
  initialMetadata _ _ := "v1.metadata.json"

def sampleConfig (warehouse namespace_ table : String) : CatalogConfig where
  type := .hadoop
  name := "alpaca"
  warehouse := warehouse
  namespace_ := namespace_
  table := table
  uri := ""
  jdbcDriver := ""
  jdbcUser := ""
  jdbcPassword := ""

/-- The old warehouse holds two tables, every other one is empty. -/
def sampleCatalogs : Catalogs CatalogFactory.Opening
  | .hadoop _ "/old" =>
      { namespaces := ["alpaca", "alpaca_candidate"]
        tables := fun id =>
          if id = ⟨"alpaca", "bars_raw"⟩ then some "raw.metadata.json"
          else if id = ⟨"alpaca_candidate", "bars_direct"⟩ then some "direct.metadata.json"
          else none }
  | _ => ⟨[], fun _ => none⟩

theorem defaultTableMigration_hands_over : ∃ line after,
    Succeeds (CatalogMigrator.migrate sampleServices (sampleConfig "/old" "alpaca" "bars_raw")
      (sampleConfig "/new" "alpaca" "bars_raw")) sampleCatalogs line after ∧
    HandsOver sampleServices (sampleConfig "/old" "alpaca" "bars_raw")
      (sampleConfig "/new" "alpaca" "bars_raw") sampleCatalogs after := by
  have hmigrate : ∃ line after, Succeeds (CatalogMigrator.migrate sampleServices
      (sampleConfig "/old" "alpaca" "bars_raw") (sampleConfig "/new" "alpaca" "bars_raw"))
      sampleCatalogs line after := ⟨_, _, rfl⟩
  obtain ⟨line, after, h⟩ := hmigrate
  exact ⟨line, after, h, (migrate_hands_over_iff h).mpr
    ⟨_, _, _, _, "raw.metadata.json", rfl, rfl, rfl, rfl, rfl, rfl, .inl ⟨rfl, rfl⟩⟩⟩

/-- The table of the other configuration stays behind: the migrator moves
`alpaca.bars_raw`, and the restarted loader would create its own table anew. -/
theorem otherTableMigration_lost : ∃ line after,
    Succeeds (CatalogMigrator.migrate sampleServices
      (sampleConfig "/old" "alpaca_candidate" "bars_direct")
      (sampleConfig "/new" "alpaca_candidate" "bars_direct")) sampleCatalogs line after ∧
    ¬ HandsOver sampleServices (sampleConfig "/old" "alpaca_candidate" "bars_direct")
      (sampleConfig "/new" "alpaca_candidate" "bars_direct") sampleCatalogs after := by
  refine ⟨_, _, rfl, ?_⟩
  rintro ⟨location, -, hloads⟩
  obtain ⟨catalog, id, hcatalog, -, hid, hbound⟩ := loads_iff.mp hloads
  cases hcatalog
  cases hid
  cases hbound

end Lakehouse.Catalog
