/-
`Settings` of `submit_compaction.py`: what the submitter takes from its
environment.

* `fromEnvironment` — the settings, or the exception the process ends with.
* `fromEnvironment_minima` — the windows and sizes of accepted settings.
* `fromEnvironment_identifiers` — their table is an identifier.
* `intOfText_natText` — a number is read back from its text.
-/

import Mathlib.Data.List.DropRight
import Lakehouse.Dashboard.Python
import Lakehouse.Lib.Result

namespace Lakehouse.Compaction

open Dashboard (PyError Py isAsciiSpace isUnicodeSpace numeralChar withoutUnderscores maxStrDigits)

/-- The exceptions that end the submitter or the job. -/
inductive Failure where
  | valueError (message : String)
  | runtimeError (message : String)
  /-- `subprocess.CalledProcessError`. -/
  | calledProcessError
  /-- `parser.error`. -/
  | systemExit (message : String)
  /-- An exception of a built-in or of `json`. -/
  | python (error : PyError)
deriving DecidableEq, Repr

/-! ### Text -/

/-- `str.isspace` of one character. -/
def isSpace (c : Char) : Bool :=
  isAsciiSpace c || (0x1C ≤ c.toNat && c.toNat ≤ 0x1F) || isUnicodeSpace c

/-- `s.strip()`. -/
def strip (s : String) : String := String.ofList ((s.toList.dropWhile isSpace).rdropWhile isSpace)

/-- `s.rstrip("/")`. -/
def rstripSlash (s : String) : String := String.ofList (s.toList.rdropWhile (· = '/'))

/-- Whether a numeral is negative, and what stands behind its sign. -/
def signed : List Char → Bool × List Char
  | '-' :: rest => (true, rest)
  | '+' :: rest => (false, rest)
  | rest => (false, rest)

/-- `int(s)`. -/
def intOfText (s : String) : Py Int :=
  let cs := ((s.toList.map numeralChar).dropWhile isAsciiSpace).rdropWhile isAsciiSpace
  match withoutUnderscores ' ' (signed cs).2 with
  | none => .error .valueError
  | some digits =>
      if digits ≠ [] ∧ digits.all Char.isDigit ∧ digits.length ≤ maxStrDigits then
        .ok (if (signed cs).1 then -(JsonReader.natOf digits : Int) else JsonReader.natOf digits)
      else .error .valueError

/-! ### The texts of natural numbers -/

theorem digit_range {c : Char} (h : c.isDigit = true) : 48 ≤ c.toNat ∧ c.toNat ≤ 57 := by
  simp only [Char.isDigit, Bool.and_eq_true, decide_eq_true_eq] at h
  exact ⟨h.1, h.2⟩

theorem isAsciiSpace_digit {c : Char} (h : c.isDigit = true) : isAsciiSpace c = false := by
  have hrange := digit_range h
  have hspace : c ≠ ' ' := by
    rintro rfl
    exact absurd hrange (by decide)
  simp only [isAsciiSpace, hspace, decide_false, Bool.false_or, Bool.and_eq_false_iff,
    decide_eq_false_iff_not]
  omega

/-- Digits are no white space: nothing is stripped. -/
theorem strip_digits {p : Char → Bool} {cs : List Char} (h : ∀ c ∈ cs, p c = false) :
    (cs.dropWhile p).rdropWhile p = cs := by
  have hdrop : cs.dropWhile p = cs := by
    cases cs with
    | nil => rfl
    | cons c rest => rw [List.dropWhile_cons_of_neg (by simp [h c List.mem_cons_self])]
  rw [hdrop, List.rdropWhile_eq_self_iff]
  intro hne
  simp [h _ (List.getLast_mem hne)]

theorem withoutUnderscores_digits {previous : Char} {ds : List Char}
    (hprevious : previous ≠ '_') (h : ∀ c ∈ ds, c.isDigit = true) :
    withoutUnderscores previous ds = some ds := by
  induction ds generalizing previous with
  | nil => simp [withoutUnderscores, hprevious]
  | cons d ds ih =>
      have hd := h d List.mem_cons_self
      have hunderscore : d ≠ '_' := by
        rintro rfl
        exact absurd hd (by decide)
      rw [withoutUnderscores, if_neg hunderscore, if_neg (fun hp => hprevious hp.1),
        ih hunderscore fun c hc => h c (List.mem_cons_of_mem _ hc)]
      rfl

theorem signed_digits {ds : List Char} (h : ∀ c ∈ ds, c.isDigit = true) :
    signed ds = (false, ds) := by
  unfold signed
  split
  · exact absurd (h '-' List.mem_cons_self) (by decide)
  · exact absurd (h '+' List.mem_cons_self) (by decide)
  · rfl

/-- A natural number is read back from its text. -/
theorem intOfText_natText {n : ℕ} (h : (Nat.toDigits 10 n).length ≤ maxStrDigits) :
    intOfText (toString n) = .ok n := by
  have hdigits : ∀ c ∈ Nat.toDigits 10 n, c.isDigit = true := fun c hc =>
    Nat.isDigit_of_mem_toDigits (by decide) (by decide) hc
  have hascii : (Nat.toDigits 10 n).map numeralChar = Nat.toDigits 10 n := by
    refine (List.map_congr_left fun c hc => ?_).trans (List.map_id _)
    have hrange := digit_range (hdigits c hc)
    rw [numeralChar, if_pos (by omega), id]
  have hstrip := strip_digits fun c hc => isAsciiSpace_digit (hdigits c hc)
  have hunsigned := withoutUnderscores_digits (by decide : ' ' ≠ '_') hdigits
  have hne : Nat.toDigits 10 n ≠ [] := List.ne_nil_of_length_pos Nat.length_toDigits_pos
  have haccepted : Nat.toDigits 10 n ≠ [] ∧ (Nat.toDigits 10 n).all Char.isDigit ∧
      (Nat.toDigits 10 n).length ≤ maxStrDigits := ⟨hne, List.all_eq_true.mpr hdigits, h⟩
  simp only [intOfText, Nat.toString_eq_repr, Nat.toList_repr, hascii, hstrip,
    signed_digits hdigits, hunsigned, if_pos haccepted, JsonReader.natOf_toDigits]
  rfl

/-- What is read as an integer can be written as one. -/
theorem length_of_intOfText {s : String} {n : Int} (h : intOfText s = .ok n) :
    (Nat.toDigits 10 n.natAbs).length ≤ maxStrDigits := by
  unfold intOfText at h
  simp only at h
  split at h
  · cases h
  · rename_i digits _
    split at h
    · rename_i haccepted
      obtain ⟨_, hdigits, hlength⟩ := haccepted
      have hlt := JsonReader.natOf_lt (List.all_eq_true.mp hdigits)
      have hle : 10 ^ digits.length ≤ 10 ^ maxStrDigits := Nat.pow_le_pow_right (by decide) hlength
      have habs : n.natAbs = JsonReader.natOf digits := by
        obtain rfl := Except.ok.inj h
        split
        · rw [Int.natAbs_neg, Int.natAbs_natCast]
        · rw [Int.natAbs_natCast]
      rw [habs, Nat.length_toDigits_le_iff (by decide) (by decide)]
      exact hlt.trans_le hle
    · cases h

/-! ### The patterns -/

def isAsciiLower (c : Char) : Bool := 'a' ≤ c && c ≤ 'z'
def isAsciiUpper (c : Char) : Bool := 'A' ≤ c && c ≤ 'Z'

/-- `IDENTIFIER`. -/
def isIdentifier (s : String) : Bool :=
  match s.toList with
  | [] => false
  | c :: rest =>
      (isAsciiUpper c || isAsciiLower c || c = '_') && rest.length ≤ 1023 &&
        rest.all fun c => isAsciiUpper c || isAsciiLower c || c.isDigit || c = '_'

/-- `PROJECT`. -/
def isProject (s : String) : Bool :=
  let cs := s.toList
  6 ≤ cs.length && cs.length ≤ 63 && cs.head?.any isAsciiLower &&
    cs.all (fun c => isAsciiLower c || c.isDigit || c = '-') && cs.getLast? != some '-'

def isBucketChar (c : Char) : Bool := isAsciiLower c || c.isDigit || c = '.' || c = '_' || c = '-'
def isPathChar (c : Char) : Bool := isBucketChar c || isAsciiUpper c || c = '/'

/-- `GCS_DIRECTORY`: a bucket, then a slash or a path of one character and more
between two. -/
def isGcsDirectory (s : String) : Bool :=
  let path := s.toList.drop 5
  "gs://".toList.isPrefixOf s.toList && path.takeWhile isBucketChar != [] &&
    match path.dropWhile isBucketChar with
    | '/' :: rest =>
        rest = [] || (2 ≤ rest.length && rest.all isPathChar && rest.getLast? = some '/')
    | _ => false

/-- `[0-9]+\.[0-9]+`. -/
def isRuntimeVersion (s : String) : Bool :=
  s.toList.takeWhile Char.isDigit != [] &&
    match s.toList.dropWhile Char.isDigit with
    | '.' :: minor => minor != [] && minor.all Char.isDigit
    | _ => false

/-! ### Settings -/

structure Settings where
  project : String
  region : String
  warehouse : String
  namespace_ : String
  table : String
  serviceAccount : String
  stagingBucket : String
  receiptDirectory : String
  quietWindowSeconds : Int
  checkIntervalSeconds : Int
  targetFileSizeBytes : Int
  executorInstances : Int
  diskSizeGib : Int
  runtimeVersion : String
  icebergRuntimePackage : String
deriving DecidableEq, Repr

abbrev Environment := List (String × String)

/-- `os.environ.get(name, default)`. -/
def environGet (environ : Environment) (name default : String) : String :=
  (environ.lookup name).getD default

/-- `required(name)`. -/
def required (environ : Environment) (name : String) : Except Failure String :=
  let value := strip (environGet environ name "")
  if value = "" then .error (.valueError (name ++ " is required")) else .ok value

/-- `integer(name, default, minimum)`. -/
def integer (environ : Environment) (name : String) (default minimum : Int) : Except Failure Int :=
  match intOfText (environGet environ name (toString default)) with
  | .error e => .error (.python e)
  | .ok value =>
      if value < minimum then
        .error (.valueError (name ++ " must be at least " ++ toString minimum))
      else .ok value

/-- `if not accepted: raise ValueError(message)`. -/
def check (accepted : Bool) (message : String) : Except Failure Unit :=
  if accepted then .ok () else .error (.valueError message)

namespace Settings

/-- The settings `from_environment` constructs. -/
def read (environ : Environment) : Except Failure Settings := do
  let project ← required environ "GCP_PROJECT"
  let warehouse ← required environ "ICEBERG_WAREHOUSE"
  let namespace_ ← required environ "ICEBERG_NAMESPACE"
  let table ← required environ "ICEBERG_TABLE"
  let serviceAccount ← required environ "COMPACTION_SERVICE_ACCOUNT"
  let stagingBucket ← required environ "COMPACTION_STAGING_BUCKET"
  let receiptDirectory ← required environ "COMPACTION_RECEIPT_DIRECTORY"
  let quietWindowSeconds ← integer environ "COMPACTION_QUIET_WINDOW_SECONDS" 900 0
  let checkIntervalSeconds ← integer environ "COMPACTION_CHECK_INTERVAL_SECONDS" 60 1
  let targetFileSizeBytes ←
    integer environ "COMPACTION_TARGET_FILE_SIZE_BYTES" 134217728 (8 * 1024 * 1024)
  let executorInstances ← integer environ "COMPACTION_EXECUTOR_INSTANCES" 2 2
  let diskSizeGib ← integer environ "COMPACTION_DISK_SIZE_GIB" 250 250
  return {
    project := project
    region := environGet environ "DATAPROC_REGION" "us-east1"
    warehouse := rstripSlash warehouse
    namespace_ := namespace_
    table := table
    serviceAccount := serviceAccount
    stagingBucket := rstripSlash stagingBucket
    receiptDirectory := receiptDirectory
    quietWindowSeconds := quietWindowSeconds
    checkIntervalSeconds := checkIntervalSeconds
    targetFileSizeBytes := targetFileSizeBytes
    executorInstances := executorInstances
    diskSizeGib := diskSizeGib
    runtimeVersion := strip (environGet environ "COMPACTION_RUNTIME_VERSION" "2.3")
    icebergRuntimePackage := environGet environ "COMPACTION_ICEBERG_RUNTIME_PACKAGE"
      "org.apache.iceberg:iceberg-spark-runtime-3.5_2.12:1.9.2" }

/-- The checks `from_environment` makes of them. -/
def validate (settings : Settings) : Except Failure Unit := do
  check (isProject settings.project) "GCP_PROJECT is invalid"
  check (isGcsDirectory (settings.warehouse ++ "/")) "ICEBERG_WAREHOUSE must be a gs:// directory"
  check (isGcsDirectory settings.receiptDirectory)
    "COMPACTION_RECEIPT_DIRECTORY must be a gs:// directory ending in /"
  check (isGcsDirectory (settings.stagingBucket ++ "/"))
    "COMPACTION_STAGING_BUCKET must be a gs:// bucket or directory"
  check (isRuntimeVersion settings.runtimeVersion)
    "COMPACTION_RUNTIME_VERSION must be a major.minor version, such as 2.3"
  check (isIdentifier settings.namespace_) "ICEBERG_NAMESPACE is invalid"
  check (isIdentifier settings.table) "ICEBERG_TABLE is invalid"

def fromEnvironment (environ : Environment) : Except Failure Settings := do
  let settings ← read environ
  settings.validate
  return settings

end Settings

/-! ### What is accepted -/

theorem integer_minimum {environ : Environment} {name : String} {default minimum value : Int}
    (h : integer environ name default minimum = .ok value) : minimum ≤ value := by
  unfold integer at h
  split at h
  · cases h
  · split at h
    · cases h
    · rename_i hvalue
      cases h
      exact Int.not_lt.mp hvalue

/-- The least values of the five integers. -/
structure Settings.Minima (settings : Settings) : Prop where
  quietWindow : 0 ≤ settings.quietWindowSeconds
  checkInterval : 1 ≤ settings.checkIntervalSeconds
  targetFileSize : 8388608 ≤ settings.targetFileSizeBytes
  executors : 2 ≤ settings.executorInstances
  diskSize : 250 ≤ settings.diskSizeGib

theorem check_eq_ok {accepted : Bool} {message : String} {u : Unit} :
    check accepted message = .ok u ↔ accepted = true := by
  cases accepted with
  | true => exact ⟨fun _ => rfl, fun _ => rfl⟩
  | false =>
      constructor
      · intro h
        cases h
      · intro h
        cases h

/-- What the checks of `from_environment` leave. -/
structure Settings.Valid (settings : Settings) : Prop where
  project : isProject settings.project = true
  warehouse : isGcsDirectory (settings.warehouse ++ "/") = true
  receiptDirectory : isGcsDirectory settings.receiptDirectory = true
  stagingBucket : isGcsDirectory (settings.stagingBucket ++ "/") = true
  runtimeVersion : isRuntimeVersion settings.runtimeVersion = true
  namespace_ : isIdentifier settings.namespace_ = true
  table : isIdentifier settings.table = true

theorem Settings.validate_eq_ok {settings : Settings} {u : Unit} :
    settings.validate = .ok u ↔ settings.Valid := by
  simp only [validate, Result.bind_eq_ok, check_eq_ok, exists_const]
  constructor
  · rintro ⟨hproject, hwarehouse, hreceipt, hstaging, hversion, hnamespace, htable⟩
    exact ⟨hproject, hwarehouse, hreceipt, hstaging, hversion, hnamespace, htable⟩
  · rintro ⟨hproject, hwarehouse, hreceipt, hstaging, hversion, hnamespace, htable⟩
    exact ⟨hproject, hwarehouse, hreceipt, hstaging, hversion, hnamespace, htable⟩

theorem Settings.fromEnvironment_eq_ok {environ : Environment} {settings : Settings} :
    Settings.fromEnvironment environ = .ok settings ↔
      Settings.read environ = .ok settings ∧ settings.Valid := by
  rw [fromEnvironment, Result.bind_eq_ok]
  constructor
  · rintro ⟨made, hread, h⟩
    obtain ⟨_, hvalid, h⟩ := Result.bind_eq_ok.mp h
    obtain rfl := Result.pure_eq_ok.mp h
    exact ⟨hread, Settings.validate_eq_ok.mp hvalid⟩
  · rintro ⟨hread, hvalid⟩
    exact ⟨settings, hread,
      Result.bind_eq_ok.mpr ⟨(), Settings.validate_eq_ok.mpr hvalid, rfl⟩⟩

theorem integer_length {environ : Environment} {name : String} {default minimum value : Int}
    (h : integer environ name default minimum = .ok value) :
    (Nat.toDigits 10 value.natAbs).length ≤ maxStrDigits := by
  unfold integer at h
  split at h
  · cases h
  · rename_i hread
    split at h
    · cases h
    · cases h
      exact length_of_intOfText hread

/-- What the settings read from an environment have. -/
structure Settings.From (environ : Environment) (settings : Settings) : Prop where
  minima : settings.Minima
  targetFileSize : (Nat.toDigits 10 settings.targetFileSizeBytes.natAbs).length ≤ maxStrDigits
  package : settings.icebergRuntimePackage =
    environGet environ "COMPACTION_ICEBERG_RUNTIME_PACKAGE"
      "org.apache.iceberg:iceberg-spark-runtime-3.5_2.12:1.9.2"

theorem Settings.from_of_read {environ : Environment} {settings : Settings}
    (h : Settings.read environ = .ok settings) : Settings.From environ settings := by
  simp only [read, Result.bind_eq_ok, Result.pure_eq_ok] at h
  obtain ⟨_, -, _, -, _, -, _, -, _, -, _, -, _, -, _, hquiet, _, hinterval, _, hsize,
    _, hexecutors, _, hdisk, rfl⟩ := h
  exact ⟨⟨integer_minimum hquiet, integer_minimum hinterval, integer_minimum hsize,
    integer_minimum hexecutors, integer_minimum hdisk⟩, integer_length hsize, rfl⟩

theorem Settings.fromEnvironment_minima {environ : Environment} {settings : Settings}
    (h : Settings.fromEnvironment environ = .ok settings) : settings.Minima :=
  (Settings.from_of_read (Settings.fromEnvironment_eq_ok.mp h).1).minima

theorem Settings.fromEnvironment_identifiers {environ : Environment} {settings : Settings}
    (h : Settings.fromEnvironment environ = .ok settings) :
    isIdentifier settings.namespace_ = true ∧ isIdentifier settings.table = true := by
  obtain ⟨_, hvalid⟩ := Settings.fromEnvironment_eq_ok.mp h
  exact ⟨hvalid.namespace_, hvalid.table⟩

/-! ### Directories -/

/-- The parts of a directory: its bucket, and what stands behind the slash. -/
structure DirectoryParts (s : String) (bucket path : List Char) : Prop where
  text : s.toList = "gs://".toList ++ bucket ++ '/' :: path
  bucket_ne : bucket ≠ []
  bucketChars : ∀ c ∈ bucket, isBucketChar c = true
  pathChars : ∀ c ∈ path, isPathChar c = true
  pathEnd : path = [] ∨ path.getLast? = some '/'

theorem isGcsDirectory_parts {s : String} (h : isGcsDirectory s = true) :
    ∃ bucket path, DirectoryParts s bucket path := by
  simp only [isGcsDirectory, Bool.and_eq_true, bne_iff_ne, ne_eq] at h
  obtain ⟨⟨hscheme, hbucket⟩, hpath⟩ := h
  obtain ⟨rest, hrest⟩ := List.isPrefixOf_iff_prefix.mp hscheme
  have hdrop : s.toList.drop 5 = rest := by
    rw [← hrest]
    rfl
  rw [hdrop] at hbucket hpath
  have hsplit := List.takeWhile_append_dropWhile (p := isBucketChar) (l := rest)
  generalize hbehind : rest.dropWhile isBucketChar = behind at hpath hsplit
  split at hpath
  · rename_i path
    simp only [Bool.or_eq_true, decide_eq_true_eq, Bool.and_eq_true, List.all_eq_true] at hpath
    refine ⟨rest.takeWhile isBucketChar, path, ?_, hbucket, fun c hc => ?_, fun c hc => ?_, ?_⟩
    · rw [← hrest, List.append_assoc, hsplit]
    · exact List.mem_takeWhile_imp hc
    · rcases hpath with rfl | ⟨⟨_, hall⟩, _⟩
      · exact absurd hc List.not_mem_nil
      · exact hall c hc
    · exact hpath.imp id And.right
  · exact absurd hpath Bool.false_ne_true

theorem isPathChar_of_isBucketChar {c : Char} (h : isBucketChar c = true) : isPathChar c = true := by
  simp [isPathChar, h]

theorem DirectoryParts.chars {s : String} {bucket path : List Char}
    (h : DirectoryParts s bucket path) : ∀ c ∈ s.toList, c = ':' ∨ isPathChar c = true := by
  intro c hc
  rw [h.text] at hc
  simp only [List.mem_append, List.mem_cons] at hc
  rcases hc with (hscheme | hbucket) | rfl | hpath
  · have hletters : ∀ c ∈ "gs://".toList, c = ':' ∨ isPathChar c = true := by
      simp [isPathChar, isBucketChar, isAsciiLower]
    exact hletters c hscheme
  · exact .inr (isPathChar_of_isBucketChar (h.bucketChars c hbucket))
  · exact .inr (by decide)
  · exact .inr (h.pathChars c hpath)

/-- A directory ends in a slash. -/
theorem DirectoryParts.ends {s : String} {bucket path : List Char}
    (h : DirectoryParts s bucket path) : ∃ front, s.toList = front ++ ['/'] := by
  rcases h.pathEnd with rfl | hlast
  · exact ⟨_, h.text⟩
  · obtain ⟨front, hfront⟩ := List.getLast?_eq_some_iff.mp hlast
    refine ⟨"gs://".toList ++ bucket ++ '/' :: front, ?_⟩
    rw [h.text, hfront]
    simp

end Lakehouse.Compaction
