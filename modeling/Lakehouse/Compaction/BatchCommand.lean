/-
`batch_command`: the command line of the submitted batch, and what its
`--properties` argument means to `gcloud`.

* `splitItem`, `dictItems` — the alternate-delimiter rule, `^#^` and
  `key=value` items.
* `dictItems_properties` — items without the separator are read back.
* `not_mem_value` — no value read holds the separator.
* `propertiesMean_iff_package` — when the properties mean what is written.
* `dictItems_second` — what else is read behind a package with a separator.
-/

import Lakehouse.Compaction.Fence
import Lakehouse.Lib.Joined

namespace Lakehouse.Compaction

open Dashboard (startsWith)

/-! ### The command -/

/-- `s.removeprefix(start)`. -/
def removeprefix (s start : String) : String :=
  if startsWith s start then String.ofList (s.toList.drop start.toList.length) else s

/-- The items `batch_command` joins. -/
def Settings.propertyItems (settings : Settings) : List String :=
  ["spark.sql.extensions=org.apache.iceberg.spark.extensions.IcebergSparkSessionExtensions",
    "spark.sql.catalog.hadoop=org.apache.iceberg.spark.SparkCatalog",
    "spark.sql.catalog.hadoop.type=hadoop",
    "spark.sql.catalog.hadoop.warehouse=" ++ settings.warehouse,
    "spark.sql.caseSensitive=true",
    "spark.jars.packages=" ++ settings.icebergRuntimePackage,
    "spark.dynamicAllocation.enabled=false",
    "spark.executor.instances=" ++ toString settings.executorInstances,
    "spark.dataproc.driver.disk.size=" ++ toString settings.diskSizeGib ++ "g",
    "spark.dataproc.executor.disk.size=" ++ toString settings.diskSizeGib ++ "g",
    "dataproc.diagnostics.enabled=false"]

def Settings.properties (settings : Settings) : String :=
  "^#^" ++ "#".intercalate settings.propertyItems

/-- `batch_command`. -/
def batchCommand (settings : Settings) (expected : Snapshot) (runId : String) : List String :=
  let receiptUri := rstripSlash settings.receiptDirectory ++ "/" ++ runId ++ ".json"
  let stagingBucketName := rstripSlash ( removeprefix settings.stagingBucket "gs://")
  ["gcloud", "dataproc", "batches", "submit", "pyspark", "iceberg-maintenance/compact_table.py",
    "--project=" ++ settings.project, "--region=" ++ settings.region, "--batch=" ++ runId,
    "--version=" ++ settings.runtimeVersion,
    "--service-account=" ++ settings.serviceAccount,
    "--deps-bucket=" ++ stagingBucketName, "--staging-bucket=" ++ stagingBucketName,
    "--properties=" ++ settings.properties, "--",
    "--namespace", settings.namespace_, "--table", settings.table,
    "--expected-snapshot-id", expected.snapshotId,
    "--target-file-size-bytes", toString settings.targetFileSizeBytes,
    "--receipt-uri", receiptUri, "--run-id", runId]

/-! ### What `gcloud` reads -/

/-- The value of the first `name=value` argument. -/
def argumentValue (name : String) (command : List String) : Option String :=
  (command.find? fun argument => startsWith argument (name ++ "=")).map fun argument =>
    removeprefix argument (name ++ "=")

/-- An item is split at its first `=`. -/
def splitItem (item : List Char) : Option (String × String) :=
  match item.dropWhile (· ≠ '=') with
  | [] => none
  | _ :: value => some (String.ofList (item.takeWhile (· ≠ '=')), String.ofList value)

/-- The items of a dictionary argument: `^d^` declares `d` in place of the comma. -/
def dictItems (argument : String) : Option (List (String × String)) :=
  match argument.toList with
  | '^' :: separator :: '^' :: rest => (rest.splitOn separator).mapM splitItem
  | rest => (rest.splitOn ',').mapM splitItem

/-! ### What is meant -/

/-- The eleven properties of a batch. -/
def Settings.intended (settings : Settings) : List (String × String) :=
  [("spark.sql.extensions",
      "org.apache.iceberg.spark.extensions.IcebergSparkSessionExtensions"),
    ("spark.sql.catalog.hadoop", "org.apache.iceberg.spark.SparkCatalog"),
    ("spark.sql.catalog.hadoop.type", "hadoop"),
    ("spark.sql.catalog.hadoop.warehouse", settings.warehouse),
    ("spark.sql.caseSensitive", "true"),
    ("spark.jars.packages", settings.icebergRuntimePackage),
    ("spark.dynamicAllocation.enabled", "false"),
    ("spark.executor.instances", toString settings.executorInstances),
    ("spark.dataproc.driver.disk.size", toString settings.diskSizeGib ++ "g"),
    ("spark.dataproc.executor.disk.size", toString settings.diskSizeGib ++ "g"),
    ("dataproc.diagnostics.enabled", "false")]

/-- The `--properties` argument of a command binds each of these keys, once and
to its value, and no other. -/
def PropertiesMean (command : List String) (intended : List (String × String)) : Prop :=
  ∃ argument items, argumentValue "--properties" command = some argument ∧
    dictItems argument = some items ∧ (items.map Prod.fst).Nodup ∧
    ∀ binding, binding ∈ items ↔ binding ∈ intended

/-! ### Finding the argument -/

theorem startsWith_append_self (start rest : String) : startsWith (start ++ rest) start = true := by
  rw [startsWith, String.toList_append]
  exact List.isPrefixOf_iff_prefix.mpr (List.prefix_append _ _)

/-- Two texts that part within both parted already. -/
theorem startsWith_append_of_ne {a b start : String} (h : ¬ a.toList <+: start.toList)
    (h' : ¬ start.toList <+: a.toList) : startsWith (a ++ b) start = false := by
  rw [startsWith, String.toList_append, Bool.eq_false_iff]
  intro hprefix
  have hstart : start.toList <+: a.toList ++ b.toList := List.isPrefixOf_iff_prefix.mp hprefix
  rcases List.prefix_or_prefix_of_prefix (List.prefix_append a.toList b.toList) hstart with hp | hp
  · exact h hp
  · exact h' hp

theorem removeprefix_append (start rest : String) : removeprefix (start ++ rest) start = rest := by
  rw [ removeprefix, if_pos (startsWith_append_self start rest), String.toList_append,
    List.drop_left, String.ofList_toList]

/-- The arguments in front of the properties have other names. -/
theorem find_properties (settings : Settings) (expected : Snapshot) (runId : String) :
    (batchCommand settings expected runId).find? (startsWith · "--properties=") =
      some ("--properties=" ++ settings.properties) := by
  let p : String → Bool := (startsWith · "--properties=")
  have hword {word : String} {rest : List String} (h : p word = false) :
      (word :: rest).find? p = rest.find? p :=
    List.find?_cons_of_neg (Bool.eq_false_iff.mp h)
  have hother {name value : String} {rest : List String} (h : ¬ name.toList <+: "--properties=".toList)
      (h' : ¬ "--properties=".toList <+: name.toList) :
      ((name ++ value) :: rest).find? p = rest.find? p :=
    hword (startsWith_append_of_ne h h')
  change (batchCommand settings expected runId).find? p = _
  rw [batchCommand]
  iterate 6 rw [hword (by decide)]
  iterate 7 rw [hother (by decide) (by decide)]
  exact List.find?_cons_of_pos (startsWith_append_self _ _)

theorem argumentValue_properties (settings : Settings) (expected : Snapshot) (runId : String) :
    argumentValue "--properties" (batchCommand settings expected runId) =
      some settings.properties := by
  have hname : "--properties" ++ "=" = "--properties=" := by decide
  rw [argumentValue, hname, find_properties, Option.map_some, removeprefix_append]

/-! ### Reading the items back -/

/-- `key=value`. -/
def itemText (binding : String × String) : List Char := binding.1.toList ++ '=' :: binding.2.toList

theorem itemText_eq (key value : String) : itemText (key, value) = (key ++ "=" ++ value).toList := by
  simp [itemText]

theorem splitItem_itemText {binding : String × String} (h : '=' ∉ binding.1.toList) :
    splitItem (itemText binding) = some binding := by
  have hkey : ∀ c ∈ binding.1.toList, decide (c ≠ '=') = true := by
    intro c hc
    simp only [decide_eq_true_eq]
    rintro rfl
    exact h hc
  rw [splitItem, itemText, List.dropWhile_append_of_pos hkey, List.takeWhile_append_of_pos hkey]
  simp

theorem mapM_splitItem {bindings : List (String × String)}
    (h : ∀ binding ∈ bindings, '=' ∉ binding.1.toList) :
    (bindings.map itemText).mapM splitItem = some bindings := by
  induction bindings with
  | nil => rfl
  | cons binding bindings ih =>
      rw [List.map_cons, List.mapM_cons, splitItem_itemText (h binding List.mem_cons_self),
        ih fun b hb => h b (List.mem_cons_of_mem _ hb)]
      rfl

theorem propertyItems_eq (settings : Settings) :
    settings.propertyItems.map String.toList = settings.intended.map itemText := by
  simp only [Settings.propertyItems, Settings.intended, itemText_eq, List.map_cons, List.map_nil]
  rfl

theorem intended_keys (settings : Settings) :
    ∀ binding ∈ settings.intended, '=' ∉ binding.1.toList := by
  simp [Settings.intended]

theorem intended_nodup (settings : Settings) : (settings.intended.map Prod.fst).Nodup := by
  simp only [Settings.intended, List.map_cons, List.map_nil]
  decide

theorem properties_toList (settings : Settings) :
    settings.properties.toList =
      '^' :: '#' :: '^' :: ['#'].intercalate (settings.intended.map itemText) := by
  rw [Settings.properties, String.toList_append, String.toList_intercalate, propertyItems_eq]
  rfl

theorem dictItems_properties (settings : Settings) :
    dictItems settings.properties =
      ((['#'].intercalate (settings.intended.map itemText)).splitOn '#').mapM splitItem := by
  rw [dictItems, properties_toList]
  rfl

/-- Without the separator in an item, each is read back. -/
theorem dictItems_intended {settings : Settings}
    (h : ∀ binding ∈ settings.intended, '#' ∉ itemText binding) :
    dictItems settings.properties = some settings.intended := by
  have hitems : ∀ item ∈ settings.intended.map itemText, '#' ∉ item := by
    intro item hitem
    obtain ⟨binding, hbinding, rfl⟩ := List.mem_map.mp hitem
    exact h binding hbinding
  have hne : settings.intended.map itemText ≠ [] := by simp [Settings.intended]
  rw [dictItems_properties, List.splitOn_intercalate '#' hitems hne,
    mapM_splitItem (intended_keys settings)]

theorem splitItem_eq_some {item : List Char} {binding : String × String}
    (h : splitItem item = some binding) : ∃ key, item = key ++ '=' :: binding.2.toList := by
  unfold splitItem at h
  split at h
  · cases h
  · rename_i c value hdrop
    obtain rfl := Option.some.inj h
    have hhead := List.head?_dropWhile_not (· ≠ '=') item
    rw [hdrop] at hhead
    have hc : c = '=' := by simpa using hhead
    subst hc
    have hsplit := List.takeWhile_append_dropWhile (p := (· ≠ '=')) (l := item)
    rw [hdrop] at hsplit
    exact ⟨item.takeWhile (· ≠ '='), by simpa using hsplit.symm⟩

theorem exists_item {items : List (List Char)} {bindings : List (String × String)}
    (h : items.mapM splitItem = some bindings) {binding : String × String}
    (hmem : binding ∈ bindings) : ∃ item ∈ items, splitItem item = some binding := by
  induction items generalizing bindings with
  | nil =>
      obtain rfl := Option.some.inj h
      exact absurd hmem List.not_mem_nil
  | cons item items ih =>
      simp only [List.mapM_cons, Option.bind_eq_bind, Option.bind_eq_some_iff, Option.pure_def,
        Option.some.injEq] at h
      obtain ⟨first, hfirst, rest, hrest, rfl⟩ := h
      rcases List.mem_cons.mp hmem with rfl | hmem
      · exact ⟨item, List.mem_cons_self, hfirst⟩
      · obtain ⟨item', hitem', hbinding⟩ := ih hrest hmem
        exact ⟨item', List.mem_cons_of_mem _ hitem', hbinding⟩

/-- No value that is read holds the separator. -/
theorem not_mem_value {settings : Settings} {items : List (String × String)}
    (h : dictItems settings.properties = some items) {binding : String × String}
    (hmem : binding ∈ items) : '#' ∉ binding.2.toList := by
  rw [dictItems_properties] at h
  obtain ⟨item, hitem, hbinding⟩ := exists_item h hmem
  obtain ⟨key, rfl⟩ := splitItem_eq_some hbinding
  have hfree := Joined.not_mem_of_mem_splitOn hitem
  exact fun hvalue => hfree (by simp [hvalue])

/-! ### The values of accepted settings -/

theorem not_mem_toString (n : Int) : '#' ∉ (toString n).toList := by
  intro hmem
  rcases Scan.isDigit_or_minus_of_mem_toString hmem with hdigit | hminus
  · exact absurd hdigit (by decide)
  · exact absurd hminus (by decide)

theorem not_mem_warehouse {settings : Settings} (h : settings.Valid) :
    '#' ∉ settings.warehouse.toList := by
  obtain ⟨bucket, path, hparts⟩ := isGcsDirectory_parts h.warehouse
  intro hmem
  have hchar := hparts.chars '#' (by simp [String.toList_append, hmem])
  exact absurd hchar (by decide)

/-- Of the values the submitter writes, only the package may hold the separator. -/
theorem itemText_free {settings : Settings} (h : settings.Valid)
    (hpackage : '#' ∉ settings.icebergRuntimePackage.toList) :
    ∀ binding ∈ settings.intended, '#' ∉ itemText binding := by
  have hwarehouse := not_mem_warehouse h
  have hinstances : '#' ∉ settings.executorInstances.repr.toList := not_mem_toString _
  have hdisk : '#' ∉ settings.diskSizeGib.repr.toList := not_mem_toString _
  simp [Settings.intended, itemText, hwarehouse, hinstances, hdisk, hpackage]

theorem free_of_propertiesMean {settings : Settings} {expected : Snapshot} {runId : String}
    (h : PropertiesMean (batchCommand settings expected runId) settings.intended) :
    '#' ∉ settings.icebergRuntimePackage.toList := by
  obtain ⟨argument, items, hargument, hitems, _, hsame⟩ := h
  rw [argumentValue_properties] at hargument
  obtain rfl := Option.some.inj hargument
  have hpackage : ("spark.jars.packages", settings.icebergRuntimePackage) ∈ items :=
    (hsame _).mpr (by simp [Settings.intended])
  exact not_mem_value hitems hpackage

/-- The properties of accepted settings mean what the submitter writes exactly
when the runtime package, which nothing checks, holds no separator. -/
theorem propertiesMean_iff_package {environ : Environment} {settings : Settings}
    (h : Settings.fromEnvironment environ = .ok settings) (expected : Snapshot) (runId : String) :
    PropertiesMean (batchCommand settings expected runId) settings.intended ↔
      '#' ∉ (environGet environ "COMPACTION_ICEBERG_RUNTIME_PACKAGE"
        "org.apache.iceberg:iceberg-spark-runtime-3.5_2.12:1.9.2").toList := by
  obtain ⟨hread, hvalid⟩ := Settings.fromEnvironment_eq_ok.mp h
  rw [← (Settings.from_of_read hread).package]
  constructor
  · exact free_of_propertiesMean
  · intro hpackage
    exact ⟨settings.properties, settings.intended, argumentValue_properties settings expected runId,
      dictItems_intended (itemText_free hvalid hpackage), intended_nodup settings, fun _ => Iff.rfl⟩

/-- The shell of the runbook leaves the package to its default. -/
theorem propertiesMean_runbook :
    PropertiesMean (batchCommand runbookSettings ⟨"3", "7002"⟩ "run-1") runbookSettings.intended :=
  (propertiesMean_iff_package fromEnvironment_runbook ⟨"3", "7002"⟩ "run-1").mpr (by decide)

/-! ### A package with a separator -/

/-- A separator in the package makes two items of its one. -/
theorem intercalate_second (settings : Settings) {second : String × String} {package : String}
    (htext : package.toList = settings.icebergRuntimePackage.toList ++ '#' :: itemText second) :
    ['#'].intercalate ({ settings with icebergRuntimePackage := package }.intended.map itemText) =
      ['#'].intercalate ((settings.intended.insertIdx 6 second).map itemText) := by
  have hitem : itemText ("spark.jars.packages", package) =
      itemText ("spark.jars.packages", settings.icebergRuntimePackage) ++
        '#' :: itemText second := by
    simp only [itemText, htext, List.append_assoc, List.cons_append]
  calc ['#'].intercalate ({ settings with icebergRuntimePackage := package }.intended.map itemText)
    _ = ['#'].intercalate ((settings.intended.take 5).map itemText ++
          itemText ("spark.jars.packages", package) ::
            (settings.intended.drop 6).map itemText) := rfl
    _ = ['#'].intercalate ((settings.intended.take 5).map itemText ++
          itemText ("spark.jars.packages", settings.icebergRuntimePackage) ::
            itemText second :: (settings.intended.drop 6).map itemText) := by
        rw [hitem, Joined.intercalate_split]
    _ = ['#'].intercalate ((settings.intended.insertIdx 6 second).map itemText) := rfl

/-- A package with a property behind it is read as two items: the property
stands behind the package. -/
theorem dictItems_second {settings : Settings} (h : settings.Valid)
    (hpackage : '#' ∉ settings.icebergRuntimePackage.toList) {second : String × String}
    (hkey : '=' ∉ second.1.toList) (hsecond : '#' ∉ itemText second) {package : String}
    (htext : package.toList = settings.icebergRuntimePackage.toList ++ '#' :: itemText second) :
    dictItems { settings with icebergRuntimePackage := package }.properties =
      some (settings.intended.insertIdx 6 second) := by
  have hmem : ∀ binding ∈ settings.intended.insertIdx 6 second,
      binding = second ∨ binding ∈ settings.intended :=
    fun binding hbinding => (List.mem_insertIdx (by simp [Settings.intended])).mp hbinding
  have hfree : ∀ item ∈ (settings.intended.insertIdx 6 second).map itemText, '#' ∉ item := by
    intro item hmapped
    obtain ⟨binding, hbinding, rfl⟩ := List.mem_map.mp hmapped
    rcases hmem binding hbinding with rfl | hintended
    · exact hsecond
    · exact itemText_free h hpackage binding hintended
  have hkeys : ∀ binding ∈ settings.intended.insertIdx 6 second, '=' ∉ binding.1.toList := by
    intro binding hbinding
    rcases hmem binding hbinding with rfl | hintended
    · exact hkey
    · exact intended_keys settings binding hintended
  have hne : (settings.intended.insertIdx 6 second).map itemText ≠ [] := by
    simp [Settings.intended]
  rw [dictItems_properties, intercalate_second settings htext,
    List.splitOn_intercalate '#' hfree hne, mapM_splitItem hkeys]

/-- A package with a second property behind it. -/
def secondProperty : String :=
  "org.apache.iceberg:iceberg-spark-runtime-3.5_2.12:1.9.2#spark.sql.caseSensitive=false"

/-- The second property is read, behind the one it contradicts. -/
theorem secondProperty_read :
    Settings.fromEnvironment (("COMPACTION_ICEBERG_RUNTIME_PACKAGE", secondProperty) :: runbook) =
        .ok { runbookSettings with icebergRuntimePackage := secondProperty } ∧
      (dictItems { runbookSettings with icebergRuntimePackage := secondProperty }.properties).map
          (List.filter (·.1 = "spark.sql.caseSensitive")) =
        some [("spark.sql.caseSensitive", "true"), ("spark.sql.caseSensitive", "false")] ∧
      ¬ PropertiesMean
        (batchCommand { runbookSettings with icebergRuntimePackage := secondProperty }
          ⟨"3", "7002"⟩ "run-1")
        { runbookSettings with icebergRuntimePackage := secondProperty }.intended := by
  have hvalid : runbookSettings.Valid :=
    (Settings.fromEnvironment_eq_ok.mp fromEnvironment_runbook).2
  have hitems : dictItems { runbookSettings with icebergRuntimePackage := secondProperty }.properties =
      some (runbookSettings.intended.insertIdx 6 ("spark.sql.caseSensitive", "false")) :=
    dictItems_second hvalid (by decide) (by decide) (by decide) (by decide)
  refine ⟨rfl, ?_, fun h => absurd (free_of_propertiesMean h) (by decide)⟩
  rw [hitems]
  rfl

end Lakehouse.Compaction
