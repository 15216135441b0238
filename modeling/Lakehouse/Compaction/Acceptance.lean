/-
The arguments the submitter gives the job, as the job reads them.

* `parseArgv` — `parse_args` from the argument list on.
* `IsRunId` — the run ids of `submit_compaction.main`.
* `isGcsObjectUri_receipt`, `segments_receipt` — the receipt of a run is an
  object, directly under the configured directory.
* `submission_accepted` — whatever the preflight accepts, the job does.
-/

import Lakehouse.Compaction.BatchCommand
import Lakehouse.Lib.LongOptions

namespace Lakehouse.Compaction

open Dashboard (Utc maxStrDigits)
open LongOptions (Spec)

/-! ### `parse_args` -/

/-- The options of the job. -/
def jobParser : LongOptions.Parser where
  specs :=
    [⟨"--catalog", false, fun _ => true⟩,
      ⟨"--namespace", true, fun _ => true⟩,
      ⟨"--table", true, fun _ => true⟩,
      ⟨"--expected-snapshot-id", true, fun _ => true⟩,
      ⟨"--target-file-size-bytes", false, fun text => (intOfText text).isOk⟩,
      ⟨"--receipt-uri", true, fun _ => true⟩,
      ⟨"--run-id", true, fun _ => true⟩]
  isDigit c := (Dashboard.decimal? c).isSome

/-- What ends the job before it starts a session. -/
inductive Exit where
  | usage (error : LongOptions.Error)
  | failure (failure : Failure)
deriving DecidableEq, Repr

/-- `type=int` and its default. -/
def targetFileSize (text : Option String) : Except Exit Int :=
  match text with
  | none => .ok 134217728
  | some text => (intOfText text).mapError fun e => .failure (.python e)

/-- `parse_args`. -/
def parseArgv (argv : List String) : Except Exit Arguments := do
  let given ← (jobParser.parse argv).mapError .usage
  let targetFileSizeBytes ← targetFileSize (LongOptions.value given "--target-file-size-bytes")
  let args : Arguments :=
    { catalog := (LongOptions.value given "--catalog").getD "hadoop"
      namespace_ := (LongOptions.value given "--namespace").getD ""
      table := (LongOptions.value given "--table").getD ""
      expectedSnapshotId := (LongOptions.value given "--expected-snapshot-id").getD ""
      targetFileSizeBytes
      receiptUri := (LongOptions.value given "--receipt-uri").getD ""
      runId := (LongOptions.value given "--run-id").getD "" }
  (parseArgs args).mapError .failure
  return args

/-- The arguments behind `--`, which are the script's. -/
def scriptArguments (command : List String) : List String :=
  (command.dropWhile (· ≠ "--")).drop 1

/-! ### Run ids -/

/-- `%Y%m%d`, of a year of four digits. -/
def dateDigits (now : Utc) : List Char :=
  let date := Calendar.Date.ofDays (now.micros / 1000000 / 86400)
  Calendar.padded 4 date.year.natAbs ++ Calendar.padded 2 date.month ++ Calendar.padded 2 date.day

/-- `%H%M%S`. -/
def timeDigits (now : Utc) : List Char :=
  let second := (now.micros / 1000000 % 86400).toNat
  Calendar.padded 2 (second / 3600) ++ Calendar.padded 2 (second / 60 % 60) ++
    Calendar.padded 2 (second % 60)

/-- The run id of `submit_compaction.main`; `hex` is `uuid.uuid4().hex`. -/
def runId (now : Utc) (hex : List Char) : String :=
  "iceberg-compact-" ++
    String.ofList (dateDigits now ++ 't' :: timeDigits now ++ 'z' :: '-' :: hex.take 8)

def isHexDigit (c : Char) : Bool := c.isDigit || ('a' ≤ c && c ≤ 'f')

/-- The form of a run id, whatever the lengths of its parts. -/
def IsRunId (s : String) : Prop :=
  ∃ date time id : List Char,
    s.toList = "iceberg-compact-".toList ++ (date ++ 't' :: time ++ 'z' :: '-' :: id) ∧
    (∀ c ∈ date, c.isDigit = true) ∧ (∀ c ∈ time, c.isDigit = true) ∧
    ∀ c ∈ id, isHexDigit c = true

theorem isRunId_runId (now : Utc) {hex : List Char} (h : ∀ c ∈ hex, isHexDigit c = true) :
    IsRunId (runId now hex) := by
  refine ⟨dateDigits now, timeDigits now, hex.take 8, ?_, ?_, ?_,
    fun c hc => h c (List.mem_of_mem_take hc)⟩
  · exact String.toList_append.trans (congrArg (_ ++ ·) String.toList_ofList)
  · intro c hc
    simp only [dateDigits, List.mem_append] at hc
    rcases hc with (hc | hc) | hc
    all_goals exact Calendar.isDigit_of_mem_padded hc
  · intro c hc
    simp only [timeDigits, List.mem_append] at hc
    rcases hc with (hc | hc) | hc
    all_goals exact Calendar.isDigit_of_mem_padded hc

theorem isBucketChar_of_isDigit {c : Char} (h : c.isDigit = true) : isBucketChar c = true := by
  simp [isBucketChar, h]

theorem isBucketChar_of_isHexDigit {c : Char} (h : isHexDigit c = true) :
    isBucketChar c = true := by
  simp only [isHexDigit, Bool.or_eq_true, Bool.and_eq_true, decide_eq_true_eq] at h
  rcases h with hdigit | ⟨hlow, hhigh⟩
  · exact isBucketChar_of_isDigit hdigit
  · have hz : c ≤ 'z' := Char.le_trans hhigh (by decide : 'f' ≤ 'z')
    simp [isBucketChar, isAsciiLower, hlow, hz]

/-- A run id has the characters of a bucket. -/
theorem IsRunId.chars {s : String} (h : IsRunId s) : ∀ c ∈ s.toList, isBucketChar c = true := by
  obtain ⟨date, time, id, htext, hdate, htime, hid⟩ := h
  intro c hc
  rw [htext] at hc
  simp only [List.mem_append, List.mem_cons] at hc
  rcases hc with hprefix | (hdate' | rfl | htime') | rfl | rfl | hid'
  · have hletters : ∀ c ∈ "iceberg-compact-".toList, isBucketChar c = true := by
      simp [isBucketChar, isAsciiLower]
    exact hletters c hprefix
  · exact isBucketChar_of_isDigit (hdate c hdate')
  · rfl
  · exact isBucketChar_of_isDigit (htime c htime')
  · rfl
  · rfl
  · exact isBucketChar_of_isHexDigit (hid c hid')

/-! ### The receipt -/

/-- The names on the way to an object, its scheme and bucket first. As in a
Hadoop path, slashes in a row are one, and those at the end do not count. -/
def segments (uri : List Char) : List (List Char) := (uri.splitOn '/').filter (· ≠ [])

/-- The object `name` of a directory. -/
def DirectlyUnder (directory name uri : String) : Prop :=
  '/' ∉ name.toList ∧ segments uri.toList = segments directory.toList ++ [name.toList]

theorem segments_append (front behind : List Char) :
    segments (front ++ '/' :: behind) = segments front ++ segments behind := by
  rw [segments, List.splitOn_append_cons_self, List.filter_append]
  rfl

theorem segments_name {name : List Char} (h : '/' ∉ name) (hne : name ≠ []) :
    segments name = [name] := by
  rw [segments, List.splitOn_eq_singleton h]
  simp [hne]

/-- Slashes at the end lead nowhere. -/
theorem segments_rdropWhile (uri : List Char) :
    segments (uri.rdropWhile (· = '/')) = segments uri := by
  induction uri using List.reverseRecOn with
  | nil => rfl
  | append_singleton uri c ih =>
      by_cases hc : c = '/'
      · subst hc
        rw [List.rdropWhile_concat_pos _ _ _ (by simp), ih, segments_append]
        exact (List.append_nil _).symm
      · rw [List.rdropWhile_concat_neg _ _ _ (by simp [hc])]

theorem rstripSlash_toList (s : String) :
    (rstripSlash s).toList = s.toList.rdropWhile (· = '/') := by
  rw [rstripSlash, String.toList_ofList]

/-- Without the slashes at its end, a directory still has its bucket. -/
theorem rdropWhile_directory {front path : List Char} (hfront : front.rdropWhile (· = '/') = front)
    (hpath : ∀ c ∈ path, isPathChar c = true) :
    ∃ rest, (∀ c ∈ rest, isPathChar c = true) ∧ ∀ name,
      (front ++ '/' :: path).rdropWhile (· = '/') ++ '/' :: name = front ++ '/' :: (rest ++ name) := by
  induction path using List.reverseRecOn with
  | nil =>
      refine ⟨[], by simp, fun name => ?_⟩
      rw [List.rdropWhile_concat_pos _ _ _ (by simp), hfront]
      rfl
  | append_singleton path c ih =>
      have hsnoc : front ++ '/' :: (path ++ [c]) = (front ++ '/' :: path) ++ [c] := by simp
      rw [hsnoc]
      by_cases hc : c = '/'
      · rw [List.rdropWhile_concat_pos _ _ _ (by simp [hc])]
        exact ih fun d hd => hpath d (by simp [hd])
      · rw [List.rdropWhile_concat_neg _ _ _ (by simp [hc])]
        refine ⟨path ++ [c] ++ ['/'], fun d hd => ?_, fun name => by simp⟩
        rcases List.mem_append.mp hd with hd | hd
        · exact hpath d hd
        · rw [List.mem_singleton.mp hd]
          rfl

theorem rdropWhile_bucket {bucket : List Char} (hne : bucket ≠ [])
    (hchars : ∀ c ∈ bucket, isBucketChar c = true) :
    ("gs://".toList ++ bucket).rdropWhile (· = '/') = "gs://".toList ++ bucket := by
  rw [List.rdropWhile_eq_self_iff]
  intro _
  rw [List.getLast_append_of_ne_nil _ hne]
  have hlast := hchars _ (List.getLast_mem hne)
  simp only [decide_eq_true_eq]
  intro hslash
  rw [hslash] at hlast
  exact absurd hlast (by decide)

/-- A bucket, a slash and a name that ends in `.json`. -/
theorem isGcsObjectUri_of_parts {uri : String} {bucket name : List Char}
    (htext : uri.toList = "gs://".toList ++ bucket ++ '/' :: name) (hne : bucket ≠ [])
    (hbucket : ∀ c ∈ bucket, isBucketChar c = true) (hname : ∀ c ∈ name, isPathChar c = true)
    (hlength : 5 < name.length) (hjson : ".json".toList <:+ name) : isGcsObjectUri uri = true := by
  have hdrop : uri.toList.drop 5 = bucket ++ '/' :: name := by
    rw [htext, List.append_assoc]
    rfl
  have hprefix : "gs://".toList.isPrefixOf uri.toList = true := by
    rw [htext, List.append_assoc]
    exact List.isPrefixOf_iff_prefix.mpr (List.prefix_append _ _)
  have hslash : isBucketChar '/' = false := by decide
  have htake : (bucket ++ '/' :: name).takeWhile isBucketChar = bucket := by
    rw [List.takeWhile_append_of_pos hbucket, List.takeWhile_cons_of_neg (by simp [hslash]),
      List.append_nil]
  have hbehind : (bucket ++ '/' :: name).dropWhile isBucketChar = '/' :: name := by
    rw [List.dropWhile_append_of_pos hbucket, List.dropWhile_cons_of_neg (by simp [hslash])]
  simp only [isGcsObjectUri, hdrop, hprefix, htake, hbehind, Bool.true_and, Bool.and_eq_true,
    bne_iff_ne, ne_eq, hne, not_false_eq_true, decide_eq_true_eq, List.all_eq_true, true_and]
  exact ⟨⟨hlength, hname⟩, List.isSuffixOf_iff_suffix.mpr hjson⟩

theorem receiptUri_toList (settings : Settings) (expected : Snapshot) (runId : String) :
    (jobArguments settings expected runId).receiptUri.toList =
      settings.receiptDirectory.toList.rdropWhile (· = '/') ++ '/' :: (runId ++ ".json").toList := by
  simp only [jobArguments, String.toList_append, rstripSlash_toList]
  simp

theorem receiptName_chars {runId : String} (h : IsRunId runId) :
    ∀ c ∈ (runId ++ ".json").toList, isBucketChar c = true := by
  intro c hc
  rw [String.toList_append] at hc
  rcases List.mem_append.mp hc with hc | hc
  · exact h.chars c hc
  · have hletters : ∀ c ∈ ".json".toList, isBucketChar c = true := by
      simp [isBucketChar, isAsciiLower]
    exact hletters c hc

theorem isGcsObjectUri_receipt {settings : Settings} (h : settings.Valid) (expected : Snapshot)
    {runId : String} (hrun : IsRunId runId) :
    isGcsObjectUri (jobArguments settings expected runId).receiptUri = true := by
  obtain ⟨bucket, path, hparts⟩ := isGcsDirectory_parts h.receiptDirectory
  have hbucket := rdropWhile_bucket hparts.bucket_ne hparts.bucketChars
  obtain ⟨rest, hrest, htext⟩ := rdropWhile_directory hbucket hparts.pathChars
  have huri : (jobArguments settings expected runId).receiptUri.toList =
      "gs://".toList ++ bucket ++ '/' :: (rest ++ (runId ++ ".json").toList) := by
    rw [receiptUri_toList, hparts.text, htext]
  refine isGcsObjectUri_of_parts huri hparts.bucket_ne hparts.bucketChars ?_ ?_ ?_
  · intro c hc
    rcases List.mem_append.mp hc with hc | hc
    · exact hrest c hc
    · exact isPathChar_of_isBucketChar (receiptName_chars hrun c hc)
  · obtain ⟨date, time, id, hid, _⟩ := hrun
    have hcount := congrArg List.length hid
    simp only [List.length_append, List.length_cons] at hcount
    simp only [String.toList_append, List.length_append, hcount]
    simp
    omega
  · rw [String.toList_append, ← List.append_assoc]
    exact List.suffix_append _ _

theorem directlyUnder_receipt {settings : Settings} (expected : Snapshot) {runId : String}
    (hrun : IsRunId runId) :
    DirectlyUnder settings.receiptDirectory (runId ++ ".json")
      (jobArguments settings expected runId).receiptUri := by
  have hslash : '/' ∉ (runId ++ ".json").toList := fun hmem =>
    absurd (receiptName_chars hrun '/' hmem) (by decide)
  have hne : (runId ++ ".json").toList ≠ [] := by simp
  refine ⟨hslash, ?_⟩
  rw [receiptUri_toList, segments_append, segments_rdropWhile, segments_name hslash hne]

/-- Behind the one slash at the end of a directory, the name is appended. -/
theorem receiptUri_eq_append {settings : Settings} (h : settings.Valid) (expected : Snapshot)
    (runId : String) (hone : ¬ "//".toList <:+ settings.receiptDirectory.toList) :
    (jobArguments settings expected runId).receiptUri =
      settings.receiptDirectory ++ (runId ++ ".json") := by
  obtain ⟨bucket, path, hparts⟩ := isGcsDirectory_parts h.receiptDirectory
  obtain ⟨front, hfront⟩ := hparts.ends
  have hkept : front.rdropWhile (· = '/') = front := by
    rw [List.rdropWhile_eq_self_iff]
    intro hne
    simp only [decide_eq_true_eq]
    intro hlast
    refine hone ⟨front.dropLast, ?_⟩
    have hsplit := List.dropLast_append_getLast hne
    rw [hfront, ← hsplit, hlast]
    simp
  rw [← String.toList_inj, receiptUri_toList, hfront,
    List.rdropWhile_concat_pos _ _ _ (by simp), hkept]
  simp only [String.toList_append, hfront]
  simp

/-! ### Reading the arguments -/

/-- The options of the submitter, with its values. -/
def givenOptions (args : Arguments) : List (Spec × String) :=
  [(⟨"--namespace", true, fun _ => true⟩, args.namespace_),
    (⟨"--table", true, fun _ => true⟩, args.table),
    (⟨"--expected-snapshot-id", true, fun _ => true⟩, args.expectedSnapshotId),
    (⟨"--target-file-size-bytes", false, fun text => (intOfText text).isOk⟩,
      toString args.targetFileSizeBytes),
    (⟨"--receipt-uri", true, fun _ => true⟩, args.receiptUri),
    (⟨"--run-id", true, fun _ => true⟩, args.runId)]

theorem scriptArguments_batchCommand (settings : Settings) (expected : Snapshot) (runId : String) :
    scriptArguments (batchCommand settings expected runId) =
      (givenOptions (jobArguments settings expected runId)).flatMap
        fun pair => [pair.1.name, pair.2] := by
  have hother {name value : String} {rest : List String} (h : 2 < name.toList.length) :
      ((name ++ value) :: rest).dropWhile (· ≠ "--") = rest.dropWhile (· ≠ "--") := by
    refine List.dropWhile_cons_of_pos (decide_eq_true ?_)
    intro heq
    have hlength := congrArg (fun s : String => s.toList.length) heq
    simp only [String.toList_append, List.length_append] at hlength
    have htwo : "--".toList.length = 2 := by decide
    omega
  have hword {word : String} {rest : List String} (h : decide (word ≠ "--") = true) :
      (word :: rest).dropWhile (· ≠ "--") = rest.dropWhile (· ≠ "--") :=
    List.dropWhile_cons_of_pos h
  rw [scriptArguments, batchCommand]
  iterate 6 rw [hword (by decide)]
  iterate 8 rw [hother (by decide)]
  rw [List.dropWhile_cons_of_neg (by decide)]
  rfl

theorem knows_given (args : Arguments) : ∀ pair ∈ givenOptions args, jobParser.Knows pair.1 := by
  simp only [givenOptions, List.forall_mem_cons, List.not_mem_nil, false_implies, implies_true,
    and_true]
  exact ⟨⟨by decide, rfl⟩, ⟨by decide, rfl⟩, ⟨by decide, rfl⟩, ⟨by decide, rfl⟩, ⟨by decide, rfl⟩,
    ⟨by decide, rfl⟩⟩

theorem isArgument_identifier {s : String} (h : isIdentifier s = true) :
    jobParser.IsArgument s := by
  unfold isIdentifier at h
  split at h
  · cases h
  · rename_i c rest htext
    refine LongOptions.Parser.isArgument_of_head htext ?_
    rintro rfl
    simp [isAsciiUpper, isAsciiLower] at h

theorem isSome_decimal? {c : Char} (h : c.isDigit = true) : jobParser.isDigit c = true := by
  obtain ⟨hlow, hhigh⟩ := digit_range h
  have hfind : Dashboard.decimalZeros.find? (fun low => low ≤ c.toNat ∧ c.toNat < low + 10) =
      some 48 := List.find?_cons_of_pos (by simp; omega)
  simp only [jobParser, Dashboard.decimal?, hfind]
  rfl

theorem isArgument_digits {s : String} (hne : s.toList ≠ [])
    (h : ∀ c ∈ s.toList, c.isDigit = true) : jobParser.IsArgument s := by
  cases htext : s.toList with
  | nil => exact absurd htext hne
  | cons c rest =>
      refine LongOptions.Parser.isArgument_of_head htext ?_
      rintro rfl
      exact absurd (h '-' (by simp [htext])) (by decide)

theorem isArgument_natText (n : ℕ) : jobParser.IsArgument (toString n) := by
  refine isArgument_digits ?_ fun c hc => ?_
  · rw [Nat.toString_eq_repr, Nat.toList_repr]
    exact List.ne_nil_of_length_pos Nat.length_toDigits_pos
  · rw [Nat.toString_eq_repr, Nat.toList_repr] at hc
    exact Nat.isDigit_of_mem_toDigits (by decide) (by decide) hc

/-- Also a negative number is taken for the argument it is. -/
theorem isArgument_intText (n : ℤ) : jobParser.IsArgument (toString n) := by
  cases n with
  | ofNat k => exact isArgument_natText k
  | negSucc k =>
      have htext : (toString (Int.negSucc k)).toList = '-' :: Nat.toDigits 10 (k + 1) := by
        have hsign : toString (Int.negSucc k) = "-" ++ toString (k + 1) := rfl
        rw [hsign, String.toList_append, Nat.toString_eq_repr, Nat.toList_repr]
        rfl
      have hdigits : ∀ c ∈ Nat.toDigits 10 (k + 1), jobParser.isDigit c = true := fun c hc =>
        isSome_decimal? (Nat.isDigit_of_mem_toDigits (by decide) (by decide) hc)
      have hother : ∀ c ∈ ['-', 'h', '=', '\n'], jobParser.isDigit c = false := by
        simp only [List.forall_mem_cons, List.not_mem_nil, false_imp_iff, implies_true, and_true]
        exact ⟨rfl, rfl, rfl, rfl⟩
      cases hfirst : Nat.toDigits 10 (k + 1) with
      | nil =>
          have hpos := @Nat.length_toDigits_pos 10 (k + 1)
          rw [hfirst] at hpos
          exact absurd hpos (Nat.lt_irrefl 0)
      | cons d rest =>
          rw [hfirst] at htext hdigits
          exact LongOptions.Parser.isArgument_of_negative htext hdigits hother (by decide)

theorem isArgument_receiptUri {settings : Settings} (h : settings.Valid) (expected : Snapshot)
    (runId : String) : jobParser.IsArgument (jobArguments settings expected runId).receiptUri := by
  obtain ⟨bucket, path, hparts⟩ := isGcsDirectory_parts h.receiptDirectory
  have hbucket := rdropWhile_bucket hparts.bucket_ne hparts.bucketChars
  obtain ⟨rest, _, htext⟩ := rdropWhile_directory hbucket hparts.pathChars
  have huri := receiptUri_toList settings expected runId
  rw [hparts.text, htext] at huri
  exact LongOptions.Parser.isArgument_of_head (huri.trans rfl) (by decide : 'g' ≠ '-')

theorem isArgument_runId {runId : String} (h : IsRunId runId) : jobParser.IsArgument runId := by
  obtain ⟨date, time, id, htext, _⟩ := h
  exact LongOptions.Parser.isArgument_of_head (htext.trans rfl) (by decide : 'i' ≠ '-')

/-- Each value is taken as the argument of its option. -/
theorem isArgument_given {settings : Settings} (h : settings.Valid) (version : String)
    (snapshotId : ℤ) {runId : String} (hrun : IsRunId runId) :
    ∀ pair ∈ givenOptions (jobArguments settings ⟨version, toString snapshotId⟩ runId),
      jobParser.IsArgument pair.2 := by
  simp only [givenOptions, List.forall_mem_cons, List.not_mem_nil, false_implies, implies_true,
    and_true]
  exact ⟨isArgument_identifier h.namespace_, isArgument_identifier h.table,
    isArgument_intText snapshotId, isArgument_intText settings.targetFileSizeBytes,
    isArgument_receiptUri h _ runId, isArgument_runId hrun⟩

theorem intOfText_targetFileSize {environ : Environment} {settings : Settings}
    (h : Settings.From environ settings) :
    intOfText (toString settings.targetFileSizeBytes) = .ok settings.targetFileSizeBytes := by
  have hsize := h.minima.targetFileSize
  obtain ⟨n, hn⟩ := Int.eq_ofNat_of_zero_le (by omega : 0 ≤ settings.targetFileSizeBytes)
  have hlength := h.targetFileSize
  rw [hn, Int.natAbs_natCast] at hlength
  rw [hn]
  exact intOfText_natText hlength

theorem accepts_given {environ : Environment} {settings : Settings}
    (h : Settings.From environ settings) (expected : Snapshot) (runId : String) :
    ∀ pair ∈ givenOptions (jobArguments settings expected runId),
      pair.1.accepts pair.2 = true := by
  have hsize : (intOfText (toString settings.targetFileSizeBytes)).isOk = true := by
    rw [intOfText_targetFileSize h]
    rfl
  simp only [givenOptions, List.forall_mem_cons, List.not_mem_nil, false_implies, implies_true,
    and_true, true_and]
  exact hsize

/-- The job reads the arguments it is given. -/
theorem parseArgv_batchCommand {environ : Environment} {settings : Settings}
    (h : Settings.From environ settings) (hvalid : settings.Valid) (version : String)
    (snapshotId : ℤ) {runId : String} (hrun : IsRunId runId) :
    parseArgv (scriptArguments (batchCommand settings ⟨version, toString snapshotId⟩ runId)) =
      .ok (jobArguments settings ⟨version, toString snapshotId⟩ runId) := by
  let args := jobArguments settings ⟨version, toString snapshotId⟩ runId
  have hparse : jobParser.parse ((givenOptions args).flatMap fun pair => [pair.1.name, pair.2]) =
      .ok ((givenOptions args).map fun pair => (pair.1.name, pair.2)) :=
    LongOptions.Parser.parse_pairs
      (fun pair hpair => ⟨knows_given args pair hpair,
        isArgument_given hvalid version snapshotId hrun pair hpair⟩)
      (accepts_given h _ runId) rfl
  have hsize : targetFileSize (some (toString settings.targetFileSizeBytes)) =
      .ok settings.targetFileSizeBytes := by
    rw [targetFileSize, intOfText_targetFileSize h]
    rfl
  have hchecked : parseArgs args = .ok () := if_neg (Int.not_lt.mpr h.minima.targetFileSize)
  rw [scriptArguments_batchCommand, parseArgv, hparse]
  refine Result.bind_eq_ok.mpr ⟨_, rfl, Result.bind_eq_ok.mpr ⟨_, hsize, ?_⟩⟩
  refine Result.bind_eq_ok.mpr ⟨(), ?_, rfl⟩
  change (parseArgs args).mapError Exit.failure = .ok ()
  rw [hchecked]
  rfl

/-! ### The job on these arguments -/

/-- The error of `write_receipt`. -/
def invalidReceipt : Failure := .valueError "receipt URI must be a gs:// object ending in .json"

/-- The job takes what the submitter gives it. -/
structure Accepted (settings : Settings) (expected : Snapshot) (runId : String) : Prop where
  parsed : parseArgv (scriptArguments (batchCommand settings expected runId)) =
    .ok (jobArguments settings expected runId)
  qualified : ∃ table, qualifiedTable (jobArguments settings expected runId).catalog
    (jobArguments settings expected runId).namespace_
    (jobArguments settings expected runId).table = .ok table
  object : isGcsObjectUri (jobArguments settings expected runId).receiptUri = true
  placed : DirectlyUnder settings.receiptDirectory (runId ++ ".json")
    (jobArguments settings expected runId).receiptUri
  /-- Unless the directory ends in several slashes, this is its text. -/
  appended : ¬ "//".toList <:+ settings.receiptDirectory.toList →
    (jobArguments settings expected runId).receiptUri =
      settings.receiptDirectory ++ (runId ++ ".json")
  /-- No run fails at its receipt. -/
  written : ∀ spark, (main (jobArguments settings expected runId) spark).result ≠
    .error invalidReceipt

theorem python_failsOnly {α : Type} (value : Dashboard.Py α) :
    Result.FailsOnly (· ≠ invalidReceipt) (python value) := by
  cases value with
  | error e => exact Result.failsOnly_error (by simp [invalidReceipt])
  | ok a => exact Result.failsOnly_ok _ a

theorem snapshotMetrics_failsOnly (first : First) (view : View) :
    Result.FailsOnly (· ≠ invalidReceipt) (snapshotMetrics first view) := by
  unfold snapshotMetrics
  split
  · exact Result.failsOnly_error (by simp [invalidReceipt])
  · split
    · exact Result.failsOnly_error (by simp [invalidReceipt])
    · exact Result.failsOnly_bind (python_failsOnly _) fun _ => Result.failsOnly_ok _ _

theorem verified_failsOnly (before after : Metrics) (failedFiles : Int) :
    Result.FailsOnly (· ≠ invalidReceipt) (verified before after failedFiles) := by
  unfold verified
  repeat' split
  · exact Result.failsOnly_error (by simp [invalidReceipt])
  · exact Result.failsOnly_error (by simp [invalidReceipt])
  · exact Result.failsOnly_error (by simp [invalidReceipt])
  · exact Result.failsOnly_error (by simp [invalidReceipt])
  · exact Result.failsOnly_ok _ ()

/-- With a valid receipt target, no run fails at it. -/
theorem fenced_failsOnly {args : Arguments} (h : isGcsObjectUri args.receiptUri = true)
    (spark : Spark) (before : Metrics) :
    Result.FailsOnly (· ≠ invalidReceipt) (fenced args spark before).result := by
  unfold fenced
  split
  · exact Result.failsOnly_error (by simp [invalidReceipt, changedAfterPreflight])
  · refine Result.failsOnly_bind (snapshotMetrics_failsOnly _ _) fun after => ?_
    refine Result.failsOnly_bind (verified_failsOnly before after _) fun _ => ?_
    rw [h]
    exact Result.failsOnly_ok _ _

theorem check_failsOnly (accepted : Bool) {message : String}
    (h : message ≠ "receipt URI must be a gs:// object ending in .json") :
    Result.FailsOnly (· ≠ invalidReceipt) (check accepted message) := by
  cases accepted with
  | true => exact Result.failsOnly_ok _ ()
  | false => exact Result.failsOnly_error (by simpa [invalidReceipt] using h)

theorem main_failsOnly {args : Arguments} (h : isGcsObjectUri args.receiptUri = true)
    (spark : Spark) : Result.FailsOnly (· ≠ invalidReceipt) (main args spark).result := by
  have hargs : Result.FailsOnly (· ≠ invalidReceipt) (parseArgs args) := by
    unfold parseArgs
    split
    · exact Result.failsOnly_error (by simp [invalidReceipt])
    · exact Result.failsOnly_ok _ ()
  have hqualified : Result.FailsOnly (· ≠ invalidReceipt)
      (qualifiedTable args.catalog args.namespace_ args.table) := by
    refine Result.failsOnly_bind (check_failsOnly _ (by decide)) fun _ => ?_
    refine Result.failsOnly_bind (check_failsOnly _ (by decide)) fun _ => ?_
    exact Result.failsOnly_bind (check_failsOnly _ (by decide)) fun _ => Result.failsOnly_ok _ _
  have hbefore : Result.FailsOnly (· ≠ invalidReceipt) (do
      parseArgs args
      let _ ← qualifiedTable args.catalog args.namespace_ args.table
      snapshotMetrics spark.first spark.before) :=
    Result.failsOnly_bind hargs fun _ =>
      Result.failsOnly_bind hqualified fun _ => snapshotMetrics_failsOnly _ _
  unfold main
  simp only
  split
  · rename_i e he
    exact Result.failsOnly_error (hbefore e he)
  · exact fenced_failsOnly h spark _

/-- Whatever environment the preflight accepts, the job accepts its arguments,
and its receipt is an object directly under the configured directory. -/
theorem submission_accepted {environ : Environment} {settings : Settings}
    (h : Settings.fromEnvironment environ = .ok settings) (version : String) (snapshotId : ℤ)
    {runId : String} (hrun : IsRunId runId) :
    Accepted settings ⟨version, toString snapshotId⟩ runId := by
  obtain ⟨hread, hvalid⟩ := Settings.fromEnvironment_eq_ok.mp h
  have hobject := isGcsObjectUri_receipt hvalid ⟨version, toString snapshotId⟩ hrun
  exact {
    parsed := parseArgv_batchCommand (Settings.from_of_read hread) hvalid version snapshotId hrun
    qualified := (jobArguments_valid h _ runId).2
    object := hobject
    placed := directlyUnder_receipt _ hrun
    appended := receiptUri_eq_append hvalid _ runId
    written := fun spark hfailed => main_failsOnly hobject spark _ hfailed rfl }

/-- A run of the runbook's shell on 12 September 2026. -/
theorem submission_accepted_runbook :
    Accepted runbookSettings ⟨"3", toString (7002 : ℤ)⟩
      "iceberg-compact-20260912t160300z-0a1b2c3d" :=
  submission_accepted fromEnvironment_runbook "3" 7002
    ⟨"20260912".toList, "160300".toList, "0a1b2c3d".toList, by decide,
      List.all_eq_true.mp rfl, List.all_eq_true.mp rfl, List.all_eq_true.mp rfl⟩

end Lakehouse.Compaction
