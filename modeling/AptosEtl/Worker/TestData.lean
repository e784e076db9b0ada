import AptosEtl.Worker.SavedTxs
import AptosEtl.Worker.TransformTxs

/-!
# The test data

`transform_txs` with an output directory and `create_test_data` of `aptos_config/mod.rs`, which save
the transactions of a range and their records, and the tests of `aptos_config/tests.rs` that read
them again.
-/

namespace AptosEtl.Worker

open Rust Input Reps Tables Disk

section Save

variable (codecs : FileCodecs) {ω : Type}

/-! ## Transforming them -/

/-- The disk, and what was done to the publisher. -/
structure Host (ω : Type) where
  disk : State
  sent : List ω

/-- A computation on the disk. -/
def onDisk {ε α : Type} (x : Stateful State ε α) : Stateful (Host ω) ε α :=
  fun host => ((x host.disk).1, { host with disk := (x host.disk).2 })

/-- A computation that uses the publisher. -/
def onPublisher {ε α : Type} (x : Traced ω ε α) : Stateful (Host ω) ε α :=
  fun host => (x.outcome, { host with sent := host.sent ++ x.actions })

variable (publisher : Option (PublishCall → Traced ω Empty Unit))

/-- The body of the loop of `transform_txs`. -/
def transformTxInto (outdir : Option Path) (recordsVec : List Rows.Records)
    (tx : Input.Transaction) : Stateful (Host ω) SaveError (List Rows.Records) :=
  let extracted : Outcome SaveError Rows.Records :=
    (extractRecords codecs.crates tx).mapErr fun error => .Other (.records error)
  (Stateful.lift extracted).bind fun records =>
    let recordsVec := recordsVec ++ [records]
    let saved : Stateful (Host ω) SaveError Unit :=
      match outdir with
      | some outdir => onDisk (saveRecords codecs records (outdir ++ [pbName tx.version]))
      | none => .lift (.ok ())
    saved.bind fun _ =>
      match publisher with
      | some publish =>
        (Stateful.lift ((getRange records).mapErr fun error => .Other (.records error))).bind
          fun range => ((onPublisher (publishEach publish (publishRecordStruct records
            (transformName range)))).mapErr Empty.elim).bind fun _ => .lift (.ok recordsVec)
      | none => .lift (.ok recordsVec)

/-- `transform_txs`. -/
def transformTxsInto (outdir : Option Path) (txs : List Input.Transaction) :
    Stateful (Host ω) SaveError (List Rows.Records) :=
  let created : Stateful (Host ω) SaveError Unit :=
    match outdir with
    | some outdir => onDisk ((createDirAll outdir).mapErr fun error => .Other (.io error))
    | none => .lift (.ok ())
  created.bind fun _ => Stateful.tryFold (transformTxInto codecs publisher outdir) [] txs

/-- `create_test_data`. -/
def createTestData (start «end» : UInt64) (dir : Path) (stream : Stream) :
    Stateful (Host ω) SaveError Unit :=
  let txdir := dir ++ ["txs"]
  let recdir := dir ++ ["records"]
  (onDisk ((createDirAll dir).orPanic fun _ => "Failed to create output dir")).bind fun _ =>
  (onDisk ((createDirAll txdir).orPanic fun _ => "Failed to create output txs dir")).bind fun _ =>
  (onDisk ((createDirAll recdir).orPanic fun _ => "Failed to create output records dir")).bind
    fun _ =>
  (onDisk ((extractTxs codecs start «end» (some txdir) stream).mapErr fun error =>
    error.extracterror)).bind fun txs =>
  (transformTxsInto codecs publisher (some recdir) txs).bind fun _ => .lift (.ok ())

end Save

/-! ## Reading them -/

/-- `ExampleRange`. -/
structure ExampleRange where
  dir : Path
  range : UInt64 × UInt64
  name : String

/-- `ExampleRangeError`. -/
inductive ExampleRangeError where
  | NotWithinRange (version : UInt64)
  | TxNotFile (path : Path)

/-- The message in the file of a version, in a folder of the range. -/
def ExampleRange.getMessage {α : Type} (self : ExampleRange) (folder : String)
    (load : Path → Stateful State SaveError α) (version : UInt64) :
    Stateful State ExampleRangeError α := fun d =>
  let path := self.dir ++ [folder, pbName version]
  if !d.exists path then (.err (.NotWithinRange version), d)
  else if !d.isFile path then (.err (.TxNotFile path), d)
  else (load path).orPanic (fun _ => "Failed to `load_tx` due to extraction error") d

/-- `ExampleRange::get_tx`. -/
def ExampleRange.getTx (codecs : FileCodecs) (self : ExampleRange) (version : UInt64) :
    Stateful State ExampleRangeError Input.Transaction :=
  self.getMessage "txs" (loadTx codecs) version

/-- `ExampleRange::get_records`. -/
def ExampleRange.getRecords (codecs : FileCodecs) (self : ExampleRange) (version : UInt64) :
    Stateful State ExampleRangeError Rows.Records :=
  self.getMessage "records" (loadRecords codecs) version

/-- `str::parse::<u64>`. -/
def parseU64 (text : List Char) : Option UInt64 :=
  let digits := if text.head? = some '+' then text.tail else text
  if digits.isEmpty || !digits.all Char.isDigit then none
  else
    let n := Nat.ofDigitChars 10 digits 0
    if n < 2 ^ 64 then some (UInt64.ofNat n) else none

/-- What is before and after the last `_`. -/
def rsplitOnce (text : List Char) : Option (List Char × List Char) :=
  match text.reverse.span (· ≠ '_') with
  | (_, []) => none
  | (after, _ :: before) => some (before.reverse, after.reverse)

/-- `ExampleRange::from_dirpath`. -/
def ExampleRange.fromDirpath (dirpath : Path) : Outcome Empty ExampleRange :=
  (Outcome.expect dirpath.getLast? "Directory paths must be utf-8").bind fun dirname =>
  (Outcome.expect (rsplitOnce dirname.toList)
    "Directory should be \x7bname\x7d_\x7bstart\x7d_\x7bend\x7d").bind fun (before, last) =>
  -- without another separator, what is before is the start, and the name is empty
  let (name, start) := (rsplitOnce before).getD ([], before)
  (Outcome.expect (parseU64 start) "Second to last part should be u64").bind fun start_v =>
  (Outcome.expect (parseU64 last) "Second to last part should be u64").bind fun end_v =>
  .ok ⟨dirpath, (start_v, end_v), String.ofList name⟩

/-- The versions of `start..end`, without the end. -/
def versionsBefore (start «end» : UInt64) : List UInt64 :=
  (List.range' start.toNat («end».toNat - start.toNat)).map UInt64.ofNat

/-- The body of the loop of `test_transformations`. -/
def testVersion (codecs : FileCodecs) (range : ExampleRange) (version : UInt64) :
    Stateful State Empty Unit :=
  ((range.getTx codecs version).orPanic fun _ => "Failed to retrieve saved tx").bind fun tx =>
  ((range.getRecords codecs version).orPanic fun _ => "Failed to retrieve saved records").bind
    fun expected_output =>
  ((Stateful.lift (extractRecords codecs.crates tx)).orPanic fun _ =>
    "Error occured while transforming records").bind fun output =>
  .lift (if expected_output = output then .ok () else .panic "Output resources did not match")

/-- `test_transformations`, for one range. -/
def testTransformations (codecs : FileCodecs) (range : ExampleRange) : Stateful State Empty Unit :=
  Stateful.tryFold (fun _ version => testVersion codecs range version) ()
    (versionsBefore range.range.1 range.range.2)

/-! ## The test data -/

section Host

variable {codecs : FileCodecs} {dir : Path} {paths : Set Path} {ε α ω : Type}
  {publisher : Option (PublishCall → Traced ω Empty Unit)}

/-- The disk of a host changes only some paths. -/
def HostChanges (paths : Set Path) (host host' : Host ω) : Prop :=
  ChangesOnly paths host.disk host'.disk

/-- Nothing is changed. -/
theorem hostChanges_refl (paths : Set Path) (host : Host ω) : HostChanges paths host host :=
  changesOnly_refl paths host.disk

/-- Nothing is changed in two steps. -/
theorem hostChanges_trans (paths : Set Path) (host host' host'' : Host ω)
    (h : HostChanges paths host host') (h' : HostChanges paths host' host'') :
    HostChanges paths host host'' := changesOnly_trans paths _ _ _ h h'

/-- A computation on the disk keeps on the host what it keeps on the disk. -/
theorem keeps_onDisk {x : Stateful State ε α} (h : x.Keeps (ChangesOnly paths)) :
    (onDisk x : Stateful (Host ω) ε α).Keeps (HostChanges paths) := fun host => h host.disk

/-- A value of a computation on the disk. -/
theorem onDisk_eq_ok {x : Stateful State ε α} {a : α} {host host' : Host ω}
    (h : onDisk x host = (.ok a, host')) : x host.disk = (.ok a, host'.disk) := by
  obtain ⟨hvalue, rfl⟩ := Prod.mk_inj.1 h
  exact Prod.ext hvalue rfl

/-- Transforming a transaction changes its file only. -/
theorem keeps_transformTxInto {tx : Input.Transaction} (hpath : dir ++ [pbName tx.version] ∈ paths)
    (recordsVec : List Rows.Records) :
    (transformTxInto codecs publisher (some dir) recordsVec tx).Keeps (HostChanges paths) := by
  have hlift : ∀ {β : Type} (x : Outcome SaveError β),
      (Stateful.lift x : Stateful (Host ω) SaveError β).Keeps (HostChanges paths) :=
    Stateful.keeps_lift (hostChanges_refl paths)
  refine (hlift _).bind (hostChanges_trans paths) fun records => ?_
  refine (keeps_onDisk (keeps_saveMessage hpath _ _ _)).bind (hostChanges_trans paths) fun _ => ?_
  split
  · refine (hlift _).bind (hostChanges_trans paths) fun range => ?_
    refine Stateful.Keeps.bind (hostChanges_trans paths) ?_ fun _ => hlift _
    exact fun host => changesOnly_refl paths host.disk
  · exact hlift _

/-- A transaction that is transformed has its records in its file. -/
theorem transformTxInto_eq_ok {tx : Input.Transaction}
    {recordsVec recordsVec' : List Rows.Records} {host host' : Host ω}
    (h : transformTxInto codecs publisher (some dir) recordsVec tx host =
      (.ok recordsVec', host')) :
    ∃ records, extractRecords codecs.crates tx = .ok records ∧
      host'.disk.entries (dir ++ [pbName tx.version]) =
        some (.file (codecs.records.encode_to_vec records)) := by
  obtain ⟨records, host₁, hextract, hrest⟩ := Stateful.bind_eq_ok.1 h
  obtain ⟨hrecords, rfl⟩ := Stateful.lift_eq_ok.1 hextract
  obtain ⟨_, host₂, hsave, hrest⟩ := Stateful.bind_eq_ok.1 hrest
  have hfile := entries_of_saveMessage (onDisk_eq_ok hsave)
  -- what is published afterwards is not on the disk
  have hdisk : host'.disk = host₂.disk := by
    cases publisher with
    | some publish =>
      obtain ⟨range, host₃, hrange, hrest⟩ := Stateful.bind_eq_ok.1 hrest
      obtain ⟨-, rfl⟩ := Stateful.lift_eq_ok.1 hrange
      obtain ⟨_, host₄, hpublish, hrest⟩ := Stateful.bind_eq_ok.1 hrest
      obtain ⟨-, rfl⟩ := Stateful.lift_eq_ok.1 hrest
      obtain ⟨-, rfl⟩ := Prod.mk_inj.1 (Stateful.mapErr_eq_ok.1 hpublish)
      rfl
    | none =>
      obtain ⟨-, rfl⟩ := Stateful.lift_eq_ok.1 hrest
      rfl
  exact ⟨records, Outcome.mapErr_eq_ok.1 hrecords, by rw [hdisk, hfile]⟩

/-- Transforming transactions changes their files only. -/
theorem keeps_transformTxsInto {txs : List Input.Transaction} (hpaths : filesOf dir txs ⊆ paths) :
    (transformTxsInto codecs publisher (some dir) txs).Keeps (HostChanges paths) := by
  have hdir : (onDisk ((createDirAll dir).mapErr fun error => SaveError.Other (.io error)) :
      Stateful (Host ω) SaveError Unit).Keeps (HostChanges paths) :=
    keeps_onDisk ((keeps_createDirAll paths dir).mapErr fun error => SaveError.Other (.io error))
  refine hdir.bind (hostChanges_trans paths) fun _ => ?_
  exact Stateful.keeps_tryFold (hostChanges_refl paths) (hostChanges_trans paths)
    (fun recordsVec tx htx => keeps_transformTxInto (hpaths ⟨tx, htx, rfl⟩) recordsVec) []

/-- When all transactions are transformed, the records of each are saved. -/
theorem transformTxsInto_eq_ok {txs : List Input.Transaction}
    {recordsVec : List Rows.Records} {host host' : Host ω}
    (h : transformTxsInto codecs publisher (some dir) txs host = (.ok recordsVec, host')) :
    Saved (RecordsContent codecs) dir txs host'.disk := by
  obtain ⟨_, host₁, -, hloop⟩ := Stateful.bind_eq_ok.1 h
  have hstart : Saved (RecordsContent codecs) dir [] host₁.disk := by
    intro v tx hcurrent
    cases hcurrent
  refine Stateful.tryFold_induct (P := fun done _ host => Saved (RecordsContent codecs) dir done
    host.disk) hstart (fun done recordsVec host tx recordsVec' host' hsaved htx => ?_) hloop
  have hkeeps := (keeps_transformTxInto (Set.mem_singleton _) recordsVec).of_eq htx
  obtain ⟨records, hrecords, hfile⟩ := transformTxInto_eq_ok htx
  exact hsaved.concat hkeeps ⟨records, hrecords, rfl⟩ hfile

end Host

/-! ## Without a directory -/

section Without

variable {ω : Type}

/-- A computation that uses the publisher, with the errors of transforming. -/
def onTransform {α : Type} (x : Traced ω RecordsError α) : Stateful (Host ω) SaveError α :=
  (onPublisher x).mapErr fun error => .Other (.records error)

/-- The publisher is used in sequence. -/
theorem onTransform_bind {α β : Type} (x : Traced ω RecordsError α)
    (f : α → Traced ω RecordsError β) :
    onTransform (x.bind f) = (onTransform x).bind fun a => onTransform (f a) := by
  funext host
  rcases x with ⟨actions, outcome⟩
  cases outcome <;> simp [onTransform, onPublisher, Traced.bind, Stateful.bind, Stateful.mapErr]

/-- Without actions, the publisher is not used. -/
theorem onTransform_lift {α : Type} (x : Outcome RecordsError α) :
    onTransform (.lift x : Traced ω RecordsError α) =
      .lift (x.mapErr fun error => .Other (.records error)) := by
  funext host
  simp [onTransform, onPublisher, Traced.lift, Stateful.lift, Stateful.mapErr]

/-- Errors that there are not are converted in one step. -/
theorem onTransform_mapErr {α : Type} (x : Traced ω Empty α) :
    onTransform (x.mapErr Empty.elim) = (onPublisher x).mapErr Empty.elim := by
  funext host
  rcases x with ⟨actions, outcome⟩
  cases outcome with
  | ok a => rfl
  | err e => exact e.elim
  | panic message => rfl

/-- Without an output directory, a transaction is transformed as above. -/
theorem transformTxInto_none (codecs : FileCodecs)
    (publisher : Option (PublishCall → Traced ω Empty Unit)) :
    transformTxInto codecs publisher none =
      fun recordsVec tx => onTransform (transformTx codecs.crates publisher recordsVec tx) := by
  funext recordsVec tx
  rw [transformTx, onTransform_bind, onTransform_lift]
  refine congrArg (Stateful.bind _) (funext fun records => ?_)
  funext host
  cases publisher with
  | none =>
    simp only [onTransform_lift]
    rfl
  | some publish =>
    simp only [Stateful.bind, Stateful.lift, onTransform_bind, onTransform_lift,
      onTransform_mapErr]
    cases getRange records <;> rfl

/-- Without an output directory, `transform_txs` does what it does above: nothing on the disk. -/
theorem transformTxsInto_none (codecs : FileCodecs)
    (publisher : Option (PublishCall → Traced ω Empty Unit)) (txs : List Input.Transaction) :
    transformTxsInto codecs publisher none txs =
      onTransform (transformTxs codecs.crates publisher txs) := by
  have hloop : ∀ done : List Rows.Records,
      Stateful.tryFold (transformTxInto codecs publisher none) done txs =
        onTransform (Traced.tryFold (transformTx codecs.crates publisher) done txs) := by
    induction txs with
    | nil =>
      intro done
      rw [Traced.tryFold, onTransform_lift]
      rfl
    | cons tx txs ih =>
      intro done
      rw [Traced.tryFold, onTransform_bind, Stateful.tryFold, transformTxInto_none]
      refine congrArg _ (funext fun done => ?_)
      rw [← ih, transformTxInto_none]
  exact hloop []

end Without

/-! ## The name of the directory -/

/-- The name of a range. -/
def rangeDirname (name : String) (start «end» : UInt64) : String :=
  name ++ "_" ++ toString start ++ "_" ++ toString «end»

/-- The directory that the command `create-test-set` creates. -/
def testSetDir (pdir : Path) (name : String) (start «end» : UInt64) : Path :=
  join pdir (rangeDirname name start «end»)

/-- What is after a separator, without another one, is after the last one. -/
theorem rsplitOnce_append {before after : List Char} (hafter : '_' ∉ after) :
    rsplitOnce (before ++ '_' :: after) = some (before, after) := by
  have hall : ∀ c ∈ after.reverse, decide (c ≠ '_') = true := by
    intro c hc
    refine decide_eq_true ?_
    rintro rfl
    exact hafter (List.mem_reverse.1 hc)
  have hreverse : (before ++ '_' :: after).reverse = after.reverse ++ '_' :: before.reverse := by
    simp
  have hstop : decide ('_' ≠ '_') = false := by decide
  rw [rsplitOnce, hreverse, List.span_eq_takeWhile_dropWhile, List.takeWhile_append_of_pos hall,
    List.dropWhile_append_of_pos hall, List.takeWhile_cons, List.dropWhile_cons, hstop]
  simp

/-- The text of a version has no separator. -/
theorem not_mem_toString (v : UInt64) : '_' ∉ (toString v).toList := by
  intro hmem
  exact absurd (Decimal.isDigit_of_mem_toString (n := v.toNat) hmem) (by decide)

/-- The text of a version is parsed. -/
theorem parseU64_toString (v : UInt64) : parseU64 (toString v).toList = some v := by
  have htext : (toString v).toList = Nat.toDigits 10 v.toNat := by
    have htext : (toString v.toNat).toList = Nat.toDigits 10 v.toNat := by
      rw [Nat.toString_eq_ofList_toDigits, String.toList_ofList]
    exact htext
  have hdigits : ∀ c ∈ Nat.toDigits 10 v.toNat, c.isDigit = true :=
    fun c hc => Nat.isDigit_of_mem_toDigits (b := 10) (by decide) (by decide) hc
  have hne : Nat.toDigits 10 v.toNat ≠ [] := Nat.toDigits_ne_nil
  have hsign : (Nat.toDigits 10 v.toNat).head? ≠ some '+' := by
    intro hsign
    exact absurd (hdigits '+' (List.mem_of_head? hsign)) (by decide)
  have hinvalid : ((Nat.toDigits 10 v.toNat).isEmpty ||
      !(Nat.toDigits 10 v.toNat).all Char.isDigit) = false := by
    rw [List.all_eq_true.2 hdigits]
    simp [hne]
  simp only [parseU64, htext, if_neg hsign, hinvalid, Bool.false_eq_true, if_false,
    Nat.ofDigitChars_ten_toDigits, if_pos v.toNat_lt, UInt64.ofNat_toNat]

/-- The text of a version has no slash. -/
theorem slash_not_mem_toString (v : UInt64) : '/' ∉ (toString v).toList := by
  intro hmem
  exact absurd (Decimal.isDigit_of_mem_toString (n := v.toNat) hmem) (by decide)

/-- The directory of a range whose name has no slash is in the given one. -/
theorem testSetDir_eq {pdir : Path} {name : String} (hname : '/' ∉ name.toList)
    (start «end» : UInt64) :
    testSetDir pdir name start «end» = pdir ++ [rangeDirname name start «end»] := by
  have hseparator : '_' ∈ (rangeDirname name start «end»).toList := by simp [rangeDirname]
  refine join_of_not_mem ?_ ?_ ?_
  · intro hslash
    simp only [rangeDirname, String.toList_append, List.mem_append] at hslash
    rcases hslash with (((hslash | hslash) | hslash) | hslash) | hslash
    · exact hname hslash
    · exact absurd hslash (by decide)
    · exact slash_not_mem_toString start hslash
    · exact absurd hslash (by decide)
    · exact slash_not_mem_toString «end» hslash
  · intro hempty
    rw [hempty] at hseparator
    exact absurd hseparator (by decide)
  · intro hdot
    rw [hdot] at hseparator
    exact absurd hseparator (by decide)

/-- The directory of a range has its name and its versions, whatever the name. -/
theorem fromDirpath_rangeDirname (pdir : Path) (name : String) (start «end» : UInt64) :
    ExampleRange.fromDirpath (pdir ++ [rangeDirname name start «end»]) =
      .ok ⟨pdir ++ [rangeDirname name start «end»], (start, «end»), name⟩ := by
  have hlast : (pdir ++ [rangeDirname name start «end»]).getLast? =
      some (rangeDirname name start «end») := List.getLast?_concat
  have houter : rsplitOnce (rangeDirname name start «end»).toList =
      some ((name ++ "_" ++ toString start).toList, (toString «end»).toList) := by
    have htext : (rangeDirname name start «end»).toList =
        (name ++ "_" ++ toString start).toList ++ '_' :: (toString «end»).toList := by
      simp [rangeDirname]
    rw [htext, rsplitOnce_append (not_mem_toString «end»)]
  have hinner : rsplitOnce (name ++ "_" ++ toString start).toList =
      some (name.toList, (toString start).toList) := by
    have htext : (name ++ "_" ++ toString start).toList =
        name.toList ++ '_' :: (toString start).toList := by
      simp
    rw [htext, rsplitOnce_append (not_mem_toString start)]
  simp only [ExampleRange.fromDirpath, hlast, houter, hinner, Outcome.expect, Outcome.ok_bind,
    Option.getD_some, parseU64_toString, String.ofList_toList]

/-! ## The tests pass -/

section Tests

variable {codecs : FileCodecs} {start «end» : UInt64} {dir : Path} {d : State} {ω : Type}
  {publisher : Option (PublishCall → Traced ω Empty Unit)}

/-- A version of the tests is in the range. -/
theorem le_of_mem_versionsBefore {v : UInt64} (h : v ∈ versionsBefore start «end») :
    start ≤ v ∧ v < «end» := by
  obtain ⟨n, hn, rfl⟩ := List.mem_map.1 h
  have hlt := «end».toNat_lt
  rw [List.mem_range'_1] at hn
  rw [UInt64.le_iff_toNat_le, UInt64.lt_iff_toNat_lt,
    UInt64.toNat_ofNat_of_lt' (by rw [UInt64.size]; omega)]
  omega

/-- A message that is in its file is found there. -/
theorem getMessage_of_file {α : Type} {codec : Codec α} {message : α}
    (hreads : codec.ReadsBack message) {range : ExampleRange} {folder : String} {v : UInt64}
    (hfile : d.entries (range.dir ++ [folder, pbName v]) =
      some (.file (codec.encode_to_vec message))) :
    range.getMessage folder (loadMessage codec) v d.healthy = (.ok message, d.healthy) := by
  have hentry : d.healthy.entries (range.dir ++ [folder, pbName v]) =
      some (.file (codec.encode_to_vec message)) := hfile
  have hexists : d.healthy.exists (range.dir ++ [folder, pbName v]) = true := by
    simp [State.exists, hentry]
  have hisFile : d.healthy.isFile (range.dir ++ [folder, pbName v]) = true := by
    simp [State.isFile, hentry]
  have hload : loadMessage codec (range.dir ++ [folder, pbName v]) d.healthy =
      (.ok message, d.healthy) := by
    refine Stateful.bind_eq_ok.2 ⟨_, _, Stateful.mapErr_eq_ok.2 (readToEnd_healthy hfile), ?_⟩
    rw [hreads]
    rfl
  simp only [ExampleRange.getMessage, hexists, hisFile, Bool.not_true, Bool.false_eq_true, if_false]
  exact Stateful.orPanic_eq_ok.2 hload

/-- A computation that leaves the state, for each of some values, does so in a loop over them. -/
theorem tryFold_of_all {σ γ : Type} {f : γ → Stateful σ Empty Unit} {ys : List γ} {s : σ}
    (h : ∀ y ∈ ys, f y s = (.ok (), s)) :
    Stateful.tryFold (fun _ y => f y) () ys s = (.ok (), s) := by
  induction ys with
  | nil => rfl
  | cons y ys ih =>
    refine Stateful.bind_eq_ok.2 ⟨(), s, h y List.mem_cons_self, ?_⟩
    exact ih fun y hy => h y (List.mem_cons_of_mem _ hy)

/-- What saving the test data leaves, if it returns normally. -/
structure Created (codecs : FileCodecs) (dir : Path)
    (responses : List (Except Status (List Input.Transaction))) (host host' : Host ω) : Prop where
  txs : Saved (TxContent codecs) (dir ++ ["txs"]) (delivered responses) host'.disk
  records : Saved (RecordsContent codecs) (dir ++ ["records"]) (delivered responses) host'.disk
  changes : HostChanges (filesOf (dir ++ ["txs"]) (delivered responses) ∪
    filesOf (dir ++ ["records"]) (delivered responses)) host host'

/-- The test data that is created are the transactions of the stream, and their records. -/
theorem created_of_createTestData
    {responses : List (Except Status (List Input.Transaction))} {host host' : Host ω}
    (h : createTestData codecs publisher start «end» dir (.ok responses) host = (.ok (), host')) :
    Created codecs dir responses host host' := by
  obtain ⟨_, host₁, hdir, h⟩ := Stateful.bind_eq_ok.1 h
  obtain ⟨_, host₂, htxdir, h⟩ := Stateful.bind_eq_ok.1 h
  obtain ⟨_, host₃, hrecdir, h⟩ := Stateful.bind_eq_ok.1 h
  obtain ⟨txs, host₄, hextract, h⟩ := Stateful.bind_eq_ok.1 h
  obtain ⟨recordsVec, host₅, htransform, h⟩ := Stateful.bind_eq_ok.1 h
  obtain ⟨-, rfl⟩ := Stateful.lift_eq_ok.1 h
  have hextracted := Stateful.mapErr_eq_ok.1 (onDisk_eq_ok hextract)
  obtain ⟨responses', hstream, -, rfl, hsaved⟩ := extractTxs_eq_ok hextracted
  obtain rfl := Except.ok.inj hstream
  set txFiles := filesOf (dir ++ ["txs"]) (delivered responses)
  set recFiles := filesOf (dir ++ ["records"]) (delivered responses)
  have hrecords := transformTxsInto_eq_ok htransform
  have htransformed : HostChanges recFiles host₄ host₅ :=
    (keeps_transformTxsInto subset_rfl).of_eq htransform
  have hdirs : ∀ (path : Path) (m : String) (host host' : Host ω),
      onDisk ((createDirAll path).orPanic fun _ => m : Stateful State SaveError Unit) host =
        (.ok (), host') → HostChanges (txFiles ∪ recFiles) host host' := by
    intro path m host host' hcreated
    exact (keeps_onDisk ((keeps_createDirAll _ path).orPanic fun _ => m)).of_eq hcreated
  constructor
  case txs =>
    refine hsaved.of_changesOnly htransformed ?_
    rintro v ⟨tx, -, hsame⟩
    -- the two directories are different
    have hfolder := (List.append_inj' hsame rfl).1
    have hname := (List.append_inj' hfolder rfl).2
    exact absurd hname (by decide)
  case records => exact hrecords
  case changes =>
    have hreceived : HostChanges (txFiles ∪ recFiles) host₃ host₄ := by
      have hkeeps : HostChanges txFiles host₃ host₄ :=
        (keeps_extractTxs fun responses' hsame => by
          rw [← Except.ok.inj hsame]).of_eq hextracted
      exact hkeeps.mono Set.subset_union_left
    have hall := hostChanges_trans _ _ _ _ (hdirs _ _ _ _ hdir) (hdirs _ _ _ _ htxdir)
    have hall := hostChanges_trans _ _ _ _ hall (hdirs _ _ _ _ hrecdir)
    have hall := hostChanges_trans _ _ _ _ hall hreceived
    exact hostChanges_trans _ _ _ _ hall (htransformed.mono Set.subset_union_right)

/-- What is found of a version of test data: a transaction and its records. -/
def Finds (codecs : FileCodecs) (range : ExampleRange) (d : State) (v : UInt64)
    (tx : Input.Transaction) : Prop :=
  range.getTx codecs v d.healthy = (.ok tx, d.healthy) ∧
    ∃ records, extractRecords codecs.crates tx = .ok records ∧
      range.getRecords codecs v d.healthy = (.ok records, d.healthy)

/-- The test of a version passes where a transaction and its records are found. -/
theorem testVersion_of_finds {range : ExampleRange} {v : UInt64} {tx : Input.Transaction}
    (h : Finds codecs range d v tx) :
    testVersion codecs range v d.healthy = (.ok (), d.healthy) := by
  obtain ⟨hgetTx, records, hextract, hgetRecords⟩ := h
  have hlift : Stateful.lift (extractRecords codecs.crates tx) d.healthy =
      (.ok records, d.healthy) := Stateful.lift_eq_ok.2 ⟨hextract, rfl⟩
  refine Stateful.bind_eq_ok.2 ⟨tx, _, Stateful.orPanic_eq_ok.2 hgetTx, ?_⟩
  refine Stateful.bind_eq_ok.2 ⟨records, _, Stateful.orPanic_eq_ok.2 hgetRecords, ?_⟩
  refine Stateful.bind_eq_ok.2 ⟨records, _, Stateful.orPanic_eq_ok.2 hlift, ?_⟩
  exact Stateful.lift_eq_ok.2 ⟨if_pos rfl, rfl⟩

/-- The test data that are created for a range pass the tests, whatever was in the directory before
and however often the stream has delivered a version: if all versions before the end were delivered,
and the messages can be read back, the tests find the range in a name without a slash, and of each
version the transaction that was delivered last, with its records. No other files are changed. -/
theorem testTransformations_of_createTestData {pdir : Path} {name : String}
    {responses : List (Except Status (List Input.Transaction))} {host host' : Host ω}
    (hname : '/' ∉ name.toList)
    (htx : ∀ tx ∈ delivered responses, codecs.transaction.ReadsBack tx)
    (hrecords : ∀ tx ∈ delivered responses, ∀ records,
      extractRecords codecs.crates tx = .ok records → codecs.records.ReadsBack records)
    (hdelivered : ∀ v, start ≤ v → v < «end» → ∃ tx ∈ delivered responses, tx.version = v)
    (h : createTestData codecs publisher start «end» (testSetDir pdir name start «end»)
      (.ok responses) host = (.ok (), host')) :
    ∃ range, ExampleRange.fromDirpath (testSetDir pdir name start «end») = .ok range ∧
      range.name = name ∧
      (∀ v tx, LastWrite.current Input.Transaction.version (delivered responses) v = some tx →
        Finds codecs range host'.disk v tx) ∧
      testTransformations codecs range host'.disk.healthy = (.ok (), host'.disk.healthy) ∧
      HostChanges (filesOf (range.dir ++ ["txs"]) (delivered responses) ∪
        filesOf (range.dir ++ ["records"]) (delivered responses)) host host' := by
  rw [testSetDir_eq hname] at h ⊢
  have hcreated := created_of_createTestData h
  have hfinds : ∀ v tx,
      LastWrite.current Input.Transaction.version (delivered responses) v = some tx →
        Finds codecs ⟨pdir ++ [rangeDirname name start «end»], (start, «end»), name⟩
          host'.disk v tx := by
    intro v tx hcurrent
    obtain ⟨hmem, -⟩ := LastWrite.of_current hcurrent
    obtain ⟨_, rfl, htxFile⟩ := hcreated.txs v tx hcurrent
    obtain ⟨_, ⟨records, hextract, rfl⟩, hrecordsFile⟩ := hcreated.records v tx hcurrent
    rw [List.append_assoc] at htxFile hrecordsFile
    exact ⟨getMessage_of_file (htx tx hmem) htxFile, records, hextract,
      getMessage_of_file (hrecords tx hmem records hextract) hrecordsFile⟩
  refine ⟨_, fromDirpath_rangeDirname pdir name start «end», rfl, hfinds, ?_, hcreated.changes⟩
  refine tryFold_of_all fun v hv => ?_
  obtain ⟨hstart, hend⟩ := le_of_mem_versionsBefore hv
  obtain ⟨tx, hmem, hversion⟩ := hdelivered v hstart hend
  have hkey : v ∈ (delivered responses).map Input.Transaction.version :=
    hversion ▸ List.mem_map_of_mem hmem
  obtain ⟨last, hlast⟩ := LastWrite.exists_current hkey
  exact testVersion_of_finds (hfinds v last hlast)

/-- Two checkpoints, one of which is delivered twice. -/
def sampleResponses : List (Except Status (List Input.Transaction)) :=
  [.ok [sampleCheckpoint 0], .ok [sampleCheckpoint 1, sampleCheckpoint 0]]

/-- They pass the tests of the range before version 2. -/
theorem testTransformations_of_createTestData_sample :
    ∃ range d, ExampleRange.fromDirpath (testSetDir [] "two_checkpoints" 0 2) = .ok range ∧
      range.name = "two_checkpoints" ∧ testTransformations sampleCodecs range d = (.ok (), d) := by
  have hall : ∀ tx ∈ delivered sampleResponses,
      tx = sampleCheckpoint 0 ∨ tx = sampleCheckpoint 1 := by
    simp [sampleResponses, delivered]
  have htx : ∀ tx ∈ delivered sampleResponses, sampleCodecs.transaction.ReadsBack tx := by
    intro tx hmem
    rcases hall tx hmem with rfl | rfl <;> rfl
  have hrecords : ∀ tx ∈ delivered sampleResponses, ∀ records,
      extractRecords sampleCrates tx = .ok records → sampleCodecs.records.ReadsBack records := by
    intro tx hmem records hextract
    rcases hall tx hmem with rfl | rfl
    all_goals
      obtain rfl := Outcome.ok.inj hextract
      rfl
  have hdelivered : ∀ v : UInt64, 0 ≤ v → v < 2 →
      ∃ tx ∈ delivered sampleResponses, tx.version = v := by
    intro v _ hlt
    have hsmall : v = 0 ∨ v = 1 := by
      simp only [UInt64.lt_iff_toNat_lt, ← UInt64.toNat_inj] at hlt ⊢
      have htwo : (2 : UInt64).toNat = 2 := rfl
      have hone : (1 : UInt64).toNat = 1 := rfl
      have hzero : (0 : UInt64).toNat = 0 := rfl
      omega
    rcases hsmall with rfl | rfl
    · exact ⟨sampleCheckpoint 0, by simp [sampleResponses, delivered], rfl⟩
    · exact ⟨sampleCheckpoint 1, by simp [sampleResponses, delivered], rfl⟩
  have hname : '/' ∉ "two_checkpoints".toList := by decide
  have hdir : testSetDir [] "two_checkpoints" 0 2 = [] ++ [rangeDirname "two_checkpoints" 0 2] :=
    testSetDir_eq hname 0 2
  have hcreated : createTestData sampleCodecs (none : Option (PublishCall → Traced Sent Empty Unit))
      0 2 ([] ++ [rangeDirname "two_checkpoints" 0 2]) (.ok sampleResponses) ⟨sampleDisk, []⟩ =
        (.ok (), _) := rfl
  obtain ⟨range, hrange, hname, -, htests, -⟩ :=
    testTransformations_of_createTestData hname htx hrecords hdelivered (hdir ▸ hcreated)
  exact ⟨range, _, hrange, hname, htests⟩

end Tests

end AptosEtl.Worker
