/-
`CatalogConfig.java` and `CatalogFactory.java`: which catalog a process opens.

Opening a catalog is left to Iceberg: `CatalogFactory.opening` is what the code
passes to it.

* `CatalogConfig.from_eq_ok` — what a configuration from the environment says.
-/

import Lakehouse.Loader.JavaText

namespace Lakehouse.Catalog

open Loader (isBlank toUpperCase)

/-- `CatalogConfig.Type`. -/
inductive CatalogType where
  | hadoop
  | jdbc
  | rest
deriving DecidableEq, Repr

def CatalogType.name : CatalogType → String
  | .hadoop => "HADOOP"
  | .jdbc => "JDBC"
  | .rest => "REST"

/-- `Type.valueOf`. -/
def CatalogType.valueOf (s : String) : Option CatalogType :=
  [CatalogType.hadoop, .jdbc, .rest].find? fun type => type.name = s

theorem CatalogType.name_of_valueOf {s : String} {type : CatalogType} (h : valueOf s = some type) :
    type.name = s := by
  have hfound := List.find?_some h
  exact of_decide_eq_true hfound

structure CatalogConfig where
  type : CatalogType
  name : String
  warehouse : String
  namespace_ : String
  table : String
  uri : String
  jdbcDriver : String
  jdbcUser : String
  jdbcPassword : String
deriving DecidableEq, Repr

/-- What a call of the tools can throw. -/
inductive Failure where
  | illegalArgument (message : String)
  | illegalState (message : String)
  | catalog (message : String)
deriving DecidableEq, Repr

namespace CatalogConfig

/-- `environment.getOrDefault`. -/
def getOrDefault (environment : List (String × String)) (key default : String) : String :=
  (environment.lookup key).getD default

/-- `CatalogConfig.from`. `localWarehouse` is the URI of `.local-run/warehouse`
under the working directory. -/
def from_ (localWarehouse : String) (environment : List (String × String))
    (keyStart : String) : Except Failure CatalogConfig :=
  let get key default := getOrDefault environment (keyStart ++ key) default
  match CatalogType.valueOf (toUpperCase (get "CATALOG_TYPE" "hadoop")) with
  | none => .error (.illegalArgument "ICEBERG_CATALOG_TYPE must be hadoop, jdbc, or rest")
  | some type =>
      let warehouse := get "WAREHOUSE" localWarehouse
      let uri := get "CATALOG_URI" ""
      if type ≠ .hadoop ∧ isBlank uri then
        .error (.illegalArgument ("ICEBERG_CATALOG_URI is required for " ++ type.name.toLower))
      else
        .ok {
          type := type
          name := get "CATALOG_NAME" "alpaca"
          warehouse := warehouse
          namespace_ := get "NAMESPACE" "alpaca"
          table := get "TABLE" "bars_raw"
          uri := uri
          jdbcDriver := get "JDBC_DRIVER" ""
          jdbcUser := get "CATALOG_USER" ""
          jdbcPassword := get "CATALOG_PASSWORD" "" }

/-- The type is named in any case, a catalog that is a service has a URI, and the
table is `alpaca.bars_raw` unless the environment names another one. -/
theorem from_eq_ok {localWarehouse keyStart : String} {environment : List (String × String)}
    {config : CatalogConfig} (h : from_ localWarehouse environment keyStart = .ok config) :
    toUpperCase (getOrDefault environment (keyStart ++ "CATALOG_TYPE") "hadoop") = config.type.name ∧
      (config.type = .hadoop ∨ isBlank config.uri = false) ∧
      config.namespace_ = getOrDefault environment (keyStart ++ "NAMESPACE") "alpaca" ∧
      config.table = getOrDefault environment (keyStart ++ "TABLE") "bars_raw" := by
  unfold from_ at h
  dsimp only at h
  split at h
  · cases h
  · rename_i type htype
    split at h
    · cases h
    · rename_i huri
      cases h
      refine ⟨(CatalogType.name_of_valueOf htype).symm, ?_, rfl, rfl⟩
      by_cases hhadoop : type = .hadoop
      · exact .inl hhadoop
      · have hblank : ¬ isBlank (getOrDefault environment (keyStart ++ "CATALOG_URI") "") = true := fun hblank => huri ⟨hhadoop, hblank⟩
        exact .inr (by simpa using hblank)

end CatalogConfig

namespace CatalogFactory

/-- The constructor or `initialize` call `open` makes. -/
inductive Opening where
  | hadoop (configuration : List (String × String)) (warehouse : String)
  | jdbc (name : String) (properties : List (String × String))
  | rest (name : String) (properties : List (String × String))
deriving DecidableEq, Repr

def hadoopConfiguration (config : CatalogConfig) : List (String × String) :=
  if "gs://".toList.isPrefixOf config.warehouse.toList then
    [("fs.gs.impl", "com.google.cloud.hadoop.fs.gcs.GoogleHadoopFileSystem"),
     ("fs.AbstractFileSystem.gs.impl", "com.google.cloud.hadoop.fs.gcs.GoogleHadoopFS"),
     ("google.cloud.auth.type", "APPLICATION_DEFAULT")]
  else []

def baseProperties (config : CatalogConfig) : List (String × String) :=
  ("uri", config.uri) :: if isBlank config.warehouse then [] else [("warehouse", config.warehouse)]

def jdbcProperties (config : CatalogConfig) : List (String × String) :=
  baseProperties config ++
    (if isBlank config.jdbcUser then [] else [("jdbc.user", config.jdbcUser)]) ++
    (if isBlank config.jdbcPassword then [] else [("jdbc.password", config.jdbcPassword)])

/-- `CatalogFactory.open` up to the call it makes. `driverPresent` tells the
classes `Class.forName` finds. -/
def opening (driverPresent : String → Bool) (config : CatalogConfig) : Except Failure Opening :=
  match config.type with
  | .hadoop => .ok (.hadoop (hadoopConfiguration config) config.warehouse)
  | .jdbc =>
      if !isBlank config.jdbcDriver && !driverPresent config.jdbcDriver then
        .error (.illegalArgument "configured JDBC driver is not on the loader classpath")
      else .ok (.jdbc config.name (jdbcProperties config))
  | .rest => .ok (.rest config.name (baseProperties config))

end CatalogFactory

end Lakehouse.Catalog
