import AptosEtl.Lib.Decimal
import AptosEtl.Lib.Disk
import AptosEtl.Lib.LastWrite
import AptosEtl.Worker.Served
import Mathlib.Data.Set.Insert

/-!
# Saved transactions

`extract_txs` of `aptos_config/mod.rs`, which saves the transactions of a stream in a file for each
version, and the functions that save and load a message.

A run can be interrupted by the stream and by the disk, also in the middle of a file. Its error says
which version it failed on, and what it was delivered before is saved, so that the range can be
continued from there (`saved_of_runs`).
-/

namespace AptosEtl.Worker

open Rust Input Reps Tables Disk

/-! ## Messages in files -/

/-- `prost::Message`: how a message is written as bytes, and read. -/
structure Codec (α : Type) where
  encode_to_vec : α → List UInt8
  decode : List UInt8 → Except String α

/-- The message can be read after it was written. -/
def Codec.ReadsBack {α : Type} (codec : Codec α) (message : α) : Prop :=
  codec.decode (codec.encode_to_vec message) = .ok message

/-- What saving takes from other crates. -/
structure FileCodecs where
  crates : Crates
  transaction : Codec Input.Transaction
  records : Codec Rows.Records

/-- The errors in `ExtractError::Other`. -/
inductive OtherError where
  | io (error : IoError)
  | records (error : RecordsError)

/-- The `ExtractError` of the functions that save. -/
inductive SaveError where
  | StreamCreationError (error : StreamCreationError)
  | StreamErrorStatus (status : Status)
  | Other (error : OtherError)
  | FailedToCreateFile (path : Path) (error : IoError)
  | FailedToOpenFile (path : Path) (error : IoError)
  | ProtoDecodeError (error : String)

/-- The `ExtractionInteruptionError` of `extract_txs`. -/
structure SaveInterruption where
  extracterror : SaveError
  start_version : UInt64
  end_version : UInt64
  failed_on : UInt64

/-- The file of a version. -/
def pbName (version : UInt64) : String := toString version ++ ".pb"

/-- A new file with a message. -/
def saveMessage {ε : Type} (path : Path) (bytes : List UInt8)
    (createError writeError : IoError → ε) : Stateful State ε Unit :=
  ((create path).mapErr createError).bind fun _ => (writeAll path bytes).mapErr writeError

/-- The message of a file. -/
def loadMessage {α : Type} (codec : Codec α) (path : Path) : Stateful State SaveError α :=
  ((readToEnd path).mapErr (.FailedToOpenFile path)).bind fun bytes =>
    .lift (match codec.decode bytes with
      | .ok message => .ok message
      | .error error => .err (.ProtoDecodeError error))

section Save

variable (codecs : FileCodecs)

/-- `load_tx`. -/
def loadTx (path : Path) : Stateful State SaveError Input.Transaction :=
  loadMessage codecs.transaction path

/-- `load_records`. -/
def loadRecords (path : Path) : Stateful State SaveError Rows.Records :=
  loadMessage codecs.records path

/-- `save_records`. -/
def saveRecords (records : Rows.Records) (outfile : Path) : Stateful State SaveError Unit :=
  saveMessage outfile (codecs.records.encode_to_vec records) (.FailedToCreateFile outfile)
    fun error => .Other (.io error)

/-! ## Extracting transactions -/

/-- A transaction that `extract_txs` receives, with the current version and what it has collected.
-/
def receiveTx (start «end» : UInt64) (outdir : Option Path) (s : UInt64 × List Input.Transaction)
    (tx : Input.Transaction) : Stateful State SaveInterruption (UInt64 × List Input.Transaction) :=
  let cur_version := tx.version
  let saved : Stateful State SaveInterruption Unit :=
    match outdir with
    | some outdir =>
      let filepath := outdir ++ [pbName tx.version]
      saveMessage filepath (codecs.transaction.encode_to_vec tx)
        (fun error => ⟨.FailedToCreateFile filepath error, start, «end», tx.version⟩)
        (fun error => ⟨.Other (.io error), start, «end», cur_version⟩)
    | none => .lift (.ok ())
  saved.bind fun _ => .lift (.ok (cur_version, s.2 ++ [tx]))

/-- The loop of `extract_txs`, until the stream is exhausted or fails. -/
def receiveAll (start «end» : UInt64) (outdir : Option Path) :
    List (Except Status (List Input.Transaction)) → UInt64 × List Input.Transaction →
      Stateful State SaveInterruption (List Input.Transaction)
  | [], s => .lift (.ok s.2)
  | .error status :: _, s => .lift (.err ⟨.StreamErrorStatus status, start, «end», s.1⟩)
  | .ok transactions :: responses, s =>
    (Stateful.tryFold (receiveTx codecs start «end» outdir) s transactions).bind
      (receiveAll start «end» outdir responses)

/-- `extract_txs`. -/
def extractTxs (start «end» : UInt64) (outdir : Option Path) (stream : Stream) :
    Stateful State SaveInterruption (List Input.Transaction) :=
  let created : Stateful State SaveInterruption Unit :=
    match outdir with
    | some outdir => (createDirAll outdir).orPanic fun _ => "Failed to create directory"
    | none => .lift (.ok ())
  created.bind fun _ =>
    match stream with
    | .error error => .lift (.err ⟨.StreamCreationError error, start, «end», start⟩)
    | .ok responses => receiveAll codecs start «end» outdir responses (start, [])

end Save

/-! ## What is saved -/

/-- The files of the versions of some transactions. -/
def filesOf (dir : Path) (txs : List Input.Transaction) : Set Path :=
  {path | ∃ tx ∈ txs, path = dir ++ [pbName tx.version]}

/-- The file of each version has what belongs to the last transaction of the version. -/
def Saved (content : Input.Transaction → List UInt8 → Prop) (dir : Path)
    (txs : List Input.Transaction) (d : State) : Prop :=
  ∀ v tx, LastWrite.current Input.Transaction.version txs v = some tx →
    ∃ bytes, content tx bytes ∧ d.entries (dir ++ [pbName v]) = some (.file bytes)

/-- The transaction, as it is saved. -/
def TxContent (codecs : FileCodecs) (tx : Input.Transaction) (bytes : List UInt8) : Prop :=
  bytes = codecs.transaction.encode_to_vec tx

/-- The records of the transaction, as they are saved. -/
def RecordsContent (codecs : FileCodecs) (tx : Input.Transaction) (bytes : List UInt8) : Prop :=
  ∃ records, extractRecords codecs.crates tx = .ok records ∧
    bytes = codecs.records.encode_to_vec records

/-- Different versions have different files. -/
theorem pbName_injective : Function.Injective pbName := by
  intro v w h
  have htexts := congrArg String.toList h
  simp only [pbName, String.toList_append] at htexts
  have hnumbers : toString v.toNat = toString w.toNat :=
    String.toList_inj.1 (List.append_left_injective _ htexts)
  exact UInt64.toNat_inj.1 (Decimal.toString_nat_injective hnumbers)

section Saved

variable {codecs : FileCodecs} {content : Input.Transaction → List UInt8 → Prop} {dir : Path}
  {txs : List Input.Transaction} {tx : Input.Transaction} {d d' : State}

/-- The files of more transactions are more. -/
theorem filesOf_mono {txs' : List Input.Transaction} (h : ∀ tx ∈ txs, tx ∈ txs') :
    filesOf dir txs ⊆ filesOf dir txs' := by
  rintro path ⟨tx, htx, rfl⟩
  exact ⟨tx, h tx htx, rfl⟩

/-- A transaction is saved after others. -/
theorem Saved.concat (h : Saved content dir txs d)
    (hchanges : ChangesOnly {dir ++ [pbName tx.version]} d d') {bytes : List UInt8}
    (hbytes : content tx bytes)
    (hfile : d'.entries (dir ++ [pbName tx.version]) = some (.file bytes)) :
    Saved content dir (txs ++ [tx]) d' := by
  intro v tx' hcurrent
  rw [LastWrite.current_concat] at hcurrent
  split_ifs at hcurrent with hversion
  · subst hversion
    obtain rfl := Option.some.inj hcurrent
    exact ⟨bytes, hbytes, hfile⟩
  · obtain ⟨bytes', hbytes', hfile'⟩ := h v tx' hcurrent
    refine ⟨bytes', hbytes', hchanges.file (fun hsame => hversion ?_) hfile'⟩
    have hname := List.append_cancel_left (Set.mem_singleton_iff.1 hsame)
    exact (pbName_injective (List.singleton_inj.1 hname)).symm

/-- What is saved in one directory stays when another one changes. -/
theorem Saved.of_changesOnly (h : Saved content dir txs d) {paths : Set Path}
    (hchanges : ChangesOnly paths d d') (hpaths : ∀ v, dir ++ [pbName v] ∉ paths) :
    Saved content dir txs d' := by
  intro v tx hcurrent
  obtain ⟨bytes, hbytes, hfile⟩ := h v tx hcurrent
  exact ⟨bytes, hbytes, hchanges.file (hpaths v) hfile⟩

/-- Saving a message changes its file only. -/
theorem keeps_saveMessage {ε : Type} {path : Path} {paths : Set Path} (hpath : path ∈ paths)
    (bytes : List UInt8) (createError writeError : IoError → ε) :
    (saveMessage path bytes createError writeError).Keeps (ChangesOnly paths) :=
  ((keeps_create hpath).mapErr _).bind (changesOnly_trans paths)
    fun _ => (keeps_writeAll hpath bytes).mapErr _

/-- A message that was saved is in its file. -/
theorem entries_of_saveMessage {ε : Type} {path : Path} {bytes : List UInt8}
    {createError writeError : IoError → ε}
    (h : saveMessage path bytes createError writeError d = (.ok (), d')) :
    d'.entries path = some (.file bytes) := by
  obtain ⟨_, _, -, hwrite⟩ := Stateful.bind_eq_ok.1 h
  exact entries_of_writeAll (Stateful.mapErr_eq_ok.1 hwrite)

end Saved

/-! ## Receiving -/

section Receive

variable {codecs : FileCodecs} {start «end» : UInt64} {dir : Path}
  {responses : List (Except Status (List Input.Transaction))} {d d' : State}
  {s s' : UInt64 × List Input.Transaction} {tx : Input.Transaction} {e : SaveInterruption}

/-- Receiving a transaction changes its file only. -/
theorem keeps_receiveTx {paths : Set Path} (hpath : dir ++ [pbName tx.version] ∈ paths)
    (s : UInt64 × List Input.Transaction) :
    (receiveTx codecs start «end» (some dir) s tx).Keeps (ChangesOnly paths) :=
  (keeps_saveMessage hpath _ _ _).bind (changesOnly_trans paths)
    fun _ => Stateful.keeps_lift (changesOnly_refl paths) _

/-- Receiving a transaction has changed its file only. -/
theorem changesOnly_of_receiveTx
    {outcome : Outcome SaveInterruption (UInt64 × List Input.Transaction)}
    (h : receiveTx codecs start «end» (some dir) s tx d = (outcome, d')) :
    ChangesOnly {dir ++ [pbName tx.version]} d d' :=
  (keeps_receiveTx (Set.mem_singleton _) s).of_eq h

/-- Receiving the transactions of a stream changes their files only. -/
theorem keeps_receiveAll {paths : Set Path} (hpaths : filesOf dir (delivered responses) ⊆ paths)
    (s : UInt64 × List Input.Transaction) :
    (receiveAll codecs start «end» (some dir) responses s).Keeps (ChangesOnly paths) := by
  induction responses generalizing s with
  | nil => exact Stateful.keeps_lift (changesOnly_refl paths) _
  | cons response responses ih =>
    cases response with
    | error status => exact Stateful.keeps_lift (changesOnly_refl paths) _
    | ok transactions =>
      have hfirst : ∀ tx ∈ transactions, dir ++ [pbName tx.version] ∈ paths :=
        fun tx htx => hpaths ⟨tx, List.mem_append_left _ htx, rfl⟩
      have hrest : filesOf dir (delivered responses) ⊆ paths :=
        (filesOf_mono fun tx htx => List.mem_append_right _ htx).trans hpaths
      refine Stateful.Keeps.bind (changesOnly_trans paths) ?_ fun s => ih hrest s
      exact Stateful.keeps_tryFold (changesOnly_refl paths) (changesOnly_trans paths)
        (fun s tx htx => keeps_receiveTx (hfirst tx htx) s) s

/-- A transaction that is received is collected and saved. -/
theorem receiveTx_eq_ok (h : receiveTx codecs start «end» (some dir) s tx d = (.ok s', d')) :
    s' = (tx.version, s.2 ++ [tx]) ∧
      d'.entries (dir ++ [pbName tx.version]) =
        some (.file (codecs.transaction.encode_to_vec tx)) := by
  obtain ⟨_, t, hsave, hrest⟩ := Stateful.bind_eq_ok.1 h
  obtain ⟨hs, rfl⟩ := Stateful.lift_eq_ok.1 hrest
  exact ⟨(Outcome.ok.inj hs).symm, entries_of_saveMessage hsave⟩

/-- A transaction that cannot be saved is the one that is failed on. -/
theorem failed_on_of_receiveTx
    (h : receiveTx codecs start «end» (some dir) s tx d = (.err e, d')) :
    e.failed_on = tx.version := by
  simp only [receiveTx, saveMessage, Stateful.bind, Stateful.mapErr, Stateful.lift] at h
  cases hcreate : (create (dir ++ [pbName tx.version]) d).1 with
  | ok a =>
    simp only [hcreate, Outcome.mapErr_ok] at h
    cases hwrite : (writeAll (dir ++ [pbName tx.version]) (codecs.transaction.encode_to_vec tx)
        (create (dir ++ [pbName tx.version]) d).2).1 with
    | ok a =>
      rw [hwrite] at h
      cases h
    | err e' =>
      rw [hwrite] at h
      rw [← Outcome.err.inj (Prod.mk_inj.1 h).1]
    | panic m =>
      rw [hwrite] at h
      cases h
  | err e' =>
    simp only [hcreate, Outcome.mapErr_err] at h
    rw [← Outcome.err.inj (Prod.mk_inj.1 h).1]
  | panic m =>
    simp only [hcreate, Outcome.mapErr_panic] at h
    cases h

/-- What has been received: the transactions, and the version of the last of them. -/
structure Received (codecs : FileCodecs) (start : UInt64) (dir : Path)
    (done : List Input.Transaction) (s : UInt64 × List Input.Transaction) (d : State) : Prop where
  cur_version : s.1 = lastKey Input.Transaction.version done start
  txs : s.2 = done
  saved : Saved (TxContent codecs) dir done d

/-- One more transaction is received. -/
theorem Received.concat {done : List Input.Transaction} (h : Received codecs start dir done s d)
    (htx : receiveTx codecs start «end» (some dir) s tx d = (.ok s', d')) :
    Received codecs start dir (done ++ [tx]) s' d' := by
  obtain ⟨rfl, hfile⟩ := receiveTx_eq_ok htx
  have hchanges := changesOnly_of_receiveTx htx
  constructor
  case cur_version => rw [lastKey_concat]
  case txs => exact congrArg (· ++ [tx]) h.txs
  case saved => exact h.saved.concat hchanges rfl hfile

/-- The transactions of a response are received. -/
theorem Received.append {done txs : List Input.Transaction} (h : Received codecs start dir done s d)
    (htxs : Stateful.tryFold (receiveTx codecs start «end» (some dir)) s txs d = (.ok s', d')) :
    Received codecs start dir (done ++ txs) s' d' :=
  Stateful.tryFold_induct h (fun _ _ _ _ _ _ hreceived htx => hreceived.concat htx) htxs

/-- A run that returns normally has received all transactions of its stream. -/
theorem Received.of_receiveAll {done txs : List Input.Transaction}
    (h : Received codecs start dir done s d)
    (hall : receiveAll codecs start «end» (some dir) responses s d = (.ok txs, d')) :
    (∀ status, .error status ∉ responses) ∧ txs = done ++ delivered responses ∧
      Saved (TxContent codecs) dir txs d' := by
  induction responses generalizing done s d with
  | nil =>
    obtain ⟨htxs, rfl⟩ := Stateful.lift_eq_ok.1 hall
    obtain rfl := Outcome.ok.inj htxs
    rw [h.txs]
    exact ⟨fun _ => List.not_mem_nil, (List.append_nil done).symm, h.saved⟩
  | cons response responses ih =>
    cases response with
    | error status => cases hall
    | ok transactions =>
      obtain ⟨s₁, d₁, hfirst, hrest⟩ := Stateful.bind_eq_ok.1 hall
      obtain ⟨hnone, rfl, hsaved⟩ := ih (h.append hfirst) hrest
      refine ⟨fun status hstatus => ?_, by rw [delivered, List.append_assoc], hsaved⟩
      rcases List.mem_cons.1 hstatus with hfail | hstatus
      · cases hfail
      · exact hnone status hstatus

/-- A run was interrupted: of what it has received, the versions other than the one that it failed
on are saved. -/
structure Interrupted (codecs : FileCodecs) (start : UInt64) (dir : Path)
    (received : List Input.Transaction) (failed_on : UInt64) (d : State) : Prop where
  last : failed_on = lastKey Input.Transaction.version received start
  saved : ∀ v tx, v ≠ failed_on →
    LastWrite.current Input.Transaction.version received v = some tx →
      d.entries (dir ++ [pbName v]) = some (.file (codecs.transaction.encode_to_vec tx))

/-- A run that ends with an error was interrupted, after some transactions of its stream. -/
theorem Received.interrupted {done : List Input.Transaction}
    (h : Received codecs start dir done s d)
    (hall : receiveAll codecs start «end» (some dir) responses s d = (.err e, d')) :
    ∃ received, received <+: done ++ delivered responses ∧
      Interrupted codecs start dir received e.failed_on d' := by
  induction responses generalizing done s d with
  | nil => cases hall
  | cons response responses ih =>
    cases response with
    | error status =>
      obtain ⟨he, rfl⟩ := Prod.mk_inj.1 hall
      obtain rfl := Outcome.err.inj he
      refine ⟨done, List.prefix_append done _, h.cur_version, fun v tx _ hcurrent => ?_⟩
      obtain ⟨_, rfl, hfile⟩ := h.saved v tx hcurrent
      exact hfile
    | ok transactions =>
      rw [receiveAll, Stateful.bind] at hall
      cases hfirst :
        Stateful.tryFold (receiveTx codecs start «end» (some dir)) s transactions d with
      | mk outcome d₁ =>
        rw [hfirst] at hall
        cases outcome with
        | panic m => cases hall
        | ok s₁ =>
          obtain ⟨received, hreceived, hinterrupted⟩ := ih (h.append hfirst) hall
          rw [List.append_assoc] at hreceived
          exact ⟨received, hreceived, hinterrupted⟩
        | err e' =>
          obtain ⟨he, rfl⟩ := Prod.mk_inj.1 hall
          obtain rfl := Outcome.err.inj he
          obtain ⟨before, tx, rest, s₂, d₂, rfl, hbefore, htx⟩ := Stateful.tryFold_eq_err hfirst
          have hfailed := failed_on_of_receiveTx htx
          have hreceived := h.append hbefore
          have hchanges := changesOnly_of_receiveTx htx
          refine ⟨done ++ before ++ [tx], ⟨rest ++ delivered responses, ?_⟩, ?_, ?_⟩
          · simp [delivered]
          · rw [hfailed, lastKey_concat]
          · intro v tx' hne hcurrent
            rw [LastWrite.current_concat, if_neg fun hsame => hne (hsame.symm.trans hfailed.symm)]
              at hcurrent
            obtain ⟨_, rfl, hfile⟩ := hreceived.saved v tx' hcurrent
            refine hchanges.file (fun hsame => hne ?_) hfile
            have hname := List.append_cancel_left (Set.mem_singleton_iff.1 hsame)
            exact (pbName_injective (List.singleton_inj.1 hname)).trans hfailed.symm

end Receive

/-! ## Saving a range in several runs -/

section Runs

variable {codecs : FileCodecs} {start «end» : UInt64} {dir : Path}
  {responses : List (Except Status (List Input.Transaction))} {d d' : State}

/-- Before any transaction, nothing is received. -/
theorem received_nil (codecs : FileCodecs) (start : UInt64) (dir : Path) (d : State) :
    Received codecs start dir [] (start, []) d :=
  ⟨rfl, rfl, fun _ _ hcurrent => by cases hcurrent⟩

/-- `extract_txs` changes the files of what it is delivered only. -/
theorem keeps_extractTxs {paths : Set Path} {stream : Stream}
    (hpaths : ∀ responses, stream = .ok responses → filesOf dir (delivered responses) ⊆ paths) :
    (extractTxs codecs start «end» (some dir) stream).Keeps (ChangesOnly paths) := by
  refine ((keeps_createDirAll paths dir).orPanic _).bind (changesOnly_trans paths) fun _ => ?_
  cases stream with
  | error error => exact Stateful.keeps_lift (changesOnly_refl paths) _
  | ok responses => exact keeps_receiveAll (hpaths responses rfl) _

/-- If `extract_txs` returns normally, all transactions of its stream are saved. -/
theorem extractTxs_eq_ok {txs : List Input.Transaction} {stream : Stream}
    (h : extractTxs codecs start «end» (some dir) stream d = (.ok txs, d')) :
    ∃ responses, stream = .ok responses ∧ (∀ status, .error status ∉ responses) ∧
      txs = delivered responses ∧ Saved (TxContent codecs) dir txs d' := by
  obtain ⟨_, d₁, -, hrest⟩ := Stateful.bind_eq_ok.1 h
  cases stream with
  | error error => cases hrest
  | ok responses =>
    obtain ⟨hnone, htxs, hsaved⟩ := (received_nil codecs start dir d₁).of_receiveAll hrest
    exact ⟨responses, rfl, hnone, htxs, hsaved⟩

/-- If `extract_txs` ends with an error, no stream was created, or it was interrupted. -/
theorem extractTxs_eq_err {e : SaveInterruption} {stream : Stream}
    (h : extractTxs codecs start «end» (some dir) stream d = (.err e, d')) :
    e.failed_on = start ∨ ∃ responses received, stream = .ok responses ∧
      received <+: delivered responses ∧ Interrupted codecs start dir received e.failed_on d' := by
  simp only [extractTxs, Stateful.bind, Stateful.orPanic] at h
  cases hcreated : createDirAll dir d with
  | mk outcome d₁ =>
    rw [hcreated] at h
    cases outcome with
    | ok a =>
      cases stream with
      | error error =>
        obtain rfl := Outcome.err.inj (Prod.mk_inj.1 h).1
        exact .inl rfl
      | ok responses =>
        obtain ⟨received, hreceived, hinterrupted⟩ :=
          (received_nil codecs start dir d₁).interrupted h
        exact .inr ⟨responses, received, rfl, hreceived, hinterrupted⟩
    | err e' => cases h
    | panic m => cases h

/-- The versions from a start on and before another version are saved. -/
def SavedBefore (codecs : FileCodecs) (ledger : Ledger) (dir : Path) (start stop : UInt64)
    (d : State) : Prop :=
  ∀ v, start ≤ v → v < stop → d.entries (dir ++ [pbName v]) =
    some (.file (codecs.transaction.encode_to_vec (ledger.tx v)))

variable {ledger : Ledger}

/-- A version that a stream has delivered is one from its start on, and it has delivered all
versions in between. -/
theorem exists_of_received (hfollows : Follows ledger start «end» responses)
    {received : List Input.Transaction} (hreceived : received <+: delivered responses)
    (v : UInt64) :
    (∃ tx ∈ received, tx.version = v) ↔
      start ≤ v ∧ v.toNat < start.toNat + received.length := by
  have hversions : received.map (fun tx => tx.version.toNat) =
      List.range' start.toNat received.length := by
    obtain ⟨rest, hrest⟩ := hreceived
    have hall := hfollows.consecutive
    rw [← hrest, List.map_append, List.length_append, ← List.range'_append_1] at hall
    exact (List.append_inj hall (by simp)).1
  rw [UInt64.le_iff_toNat_le, ← List.mem_range'_1, ← hversions, List.mem_map]
  simp only [UInt64.toNat_inj]

/-- What a version of a stream is left with is its transaction. -/
theorem current_of_received (hfollows : Follows ledger start «end» responses)
    {received : List Input.Transaction} (hreceived : received <+: delivered responses) {v : UInt64}
    (h : ∃ tx ∈ received, tx.version = v) :
    LastWrite.current Input.Transaction.version received v = some (ledger.tx v) := by
  obtain ⟨tx, htx, hversion⟩ := h
  have hkey : v ∈ received.map Input.Transaction.version := hversion ▸ List.mem_map_of_mem htx
  obtain ⟨tx', hcurrent⟩ := LastWrite.exists_current hkey
  obtain ⟨hmem, rfl⟩ := LastWrite.of_current hcurrent
  rw [hcurrent, ← hfollows.genuine tx' (hreceived.subset hmem)]

/-- What is saved before the start of a run stays. -/
theorem SavedBefore.keeps {first : UInt64} {stream : Stream}
    (h : SavedBefore codecs ledger dir first start d)
    (hfollows : FollowsStream ledger start «end» stream)
    {outcome : Outcome SaveInterruption (List Input.Transaction)}
    (hrun : extractTxs codecs start «end» (some dir) stream d = (outcome, d')) :
    SavedBefore codecs ledger dir first start d' := by
  -- the run changes only files of versions from its start on
  have hpaths : ∀ responses, stream = .ok responses → filesOf dir (delivered responses) ⊆
      {path | ∃ v, start ≤ v ∧ path = dir ++ [pbName v]} := by
    rintro responses hstream path ⟨tx, htx, rfl⟩
    have hversion := exists_of_received (hfollows responses hstream) List.prefix_rfl tx.version
    exact ⟨tx.version, (hversion.1 ⟨tx, htx, rfl⟩).1, rfl⟩
  have hchanges := (keeps_extractTxs hpaths).of_eq hrun
  intro v hfirst hstart
  refine hchanges.file ?_ (h v hfirst hstart)
  rintro ⟨w, hw, hsame⟩
  obtain rfl := pbName_injective (List.singleton_inj.1 (List.append_cancel_left hsame))
  exact absurd hw (UInt64.not_le.2 hstart)

/-- A run that is interrupted has saved the versions before the one that it failed on. -/
theorem SavedBefore.interrupted {first : UInt64} {e : SaveInterruption} {stream : Stream}
    (h : SavedBefore codecs ledger dir first start d)
    (hfollows : FollowsStream ledger start «end» stream)
    (hrun : extractTxs codecs start «end» (some dir) stream d = (.err e, d')) :
    SavedBefore codecs ledger dir first e.failed_on d' := by
  have hbefore := h.keeps hfollows hrun
  obtain hstart | ⟨responses, received, hstream, hreceived, hinterrupted⟩ := extractTxs_eq_err hrun
  · rwa [hstart]
  have hfollows := hfollows responses hstream
  intro v hfirst hfailed
  rcases UInt64.lt_or_le v start with hstart | hstart
  · exact hbefore v hfirst hstart
  refine hinterrupted.saved v _ (UInt64.ne_of_lt hfailed)
    (current_of_received hfollows hreceived
      ((exists_of_received hfollows hreceived v).2 ⟨hstart, ?_⟩))
  -- the version that it failed on is the last one received, or the start if there is none
  have hlast := hinterrupted.last
  rw [UInt64.lt_iff_toNat_lt] at hfailed
  rcases List.eq_nil_or_concat received with rfl | ⟨before, tx, rfl⟩
  · rw [lastKey_nil] at hlast
    rw [UInt64.le_iff_toNat_le] at hstart
    rw [hlast] at hfailed
    omega
  · rw [List.concat_eq_append, lastKey_concat] at hlast
    have hmem : ∃ tx' ∈ before.concat tx, tx'.version = e.failed_on :=
      ⟨tx, by simp, hlast.symm⟩
    have hlt := ((exists_of_received hfollows hreceived e.failed_on).1 hmem).2
    omega

/-- A run that returns normally has saved the versions through the end. -/
theorem SavedBefore.finished {first : UInt64} {txs : List Input.Transaction} {stream : Stream}
    (h : SavedBefore codecs ledger dir first start d)
    (hfollows : FollowsStream ledger start «end» stream)
    (hrun : extractTxs codecs start «end» (some dir) stream d = (.ok txs, d')) :
    ∀ v, first ≤ v → v ≤ «end» → d'.entries (dir ++ [pbName v]) =
      some (.file (codecs.transaction.encode_to_vec (ledger.tx v))) := by
  have hbefore := h.keeps hfollows hrun
  obtain ⟨responses, hstream, hnone, rfl, hsaved⟩ := extractTxs_eq_ok hrun
  have hfollows := hfollows responses hstream
  intro v hfirst hend
  rcases UInt64.lt_or_le v start with hstart | hstart
  · exact hbefore v hfirst hstart
  have hcomplete := hfollows.complete hnone
  rw [UInt64.le_iff_toNat_le] at hend
  have hmem := (exists_of_received hfollows List.prefix_rfl v).2 ⟨hstart, by omega⟩
  obtain ⟨_, rfl, hfile⟩ := hsaved v _ (current_of_received hfollows List.prefix_rfl hmem)
  exact hfile

/-- A range is saved in several runs: each starts with the version that the one before failed on,
on a disk with the same files, and the last one returns normally. -/
inductive SavedInRuns (codecs : FileCodecs) (ledger : Ledger) («end» : UInt64) (dir : Path) :
    UInt64 → State → State → Prop
  | finished {start stream txs d d'} (hfollows : FollowsStream ledger start «end» stream)
      (hrun : extractTxs codecs start «end» (some dir) stream d = (.ok txs, d')) :
      SavedInRuns codecs ledger «end» dir start d d'
  | interrupted {start stream e d d' again d''} (hfollows : FollowsStream ledger start «end» stream)
      (hrun : extractTxs codecs start «end» (some dir) stream d = (.err e, d'))
      (hsame : again.entries = d'.entries)
      (hruns : SavedInRuns codecs ledger «end» dir e.failed_on again d'') :
      SavedInRuns codecs ledger «end» dir start d d''

/-- However often saving a range is interrupted, by the stream or by the disk, and wherever a write
stops: if it goes on with the version that it failed on until it returns normally, every version of
the range has its transaction in its file. -/
theorem saved_of_runs (h : SavedInRuns codecs ledger «end» dir start d d') :
    ∀ v, start ≤ v → v ≤ «end» → d'.entries (dir ++ [pbName v]) =
      some (.file (codecs.transaction.encode_to_vec (ledger.tx v))) := by
  -- the runs extend what is saved from the first version on
  have hruns : ∀ first, SavedBefore codecs ledger dir first start d →
      ∀ v, first ≤ v → v ≤ «end» → d'.entries (dir ++ [pbName v]) =
        some (.file (codecs.transaction.encode_to_vec (ledger.tx v))) := by
    induction h with
    | finished hfollows hrun => exact fun first hbefore => hbefore.finished hfollows hrun
    | interrupted hfollows hrun hsame hruns ih =>
      intro first hbefore
      refine ih first fun v hfirst hfailed => ?_
      rw [hsame]
      exact hbefore.interrupted hfollows hrun v hfirst hfailed
  exact hruns start fun v hstart hlt => absurd hlt (UInt64.not_lt.2 hstart)

/-- Messages of the sample checkpoints, as their versions. -/
def sampleCodecs : FileCodecs where
  crates := sampleCrates
  transaction := {
    encode_to_vec tx := [tx.version.toUInt8]
    decode bytes := .ok (sampleCheckpoint (bytes.headD 0).toUInt64) }
  records := {
    encode_to_vec records := records.transactions.map fun row => row.tx_version.toUInt8
    decode bytes :=
      match extractRecords sampleCrates (sampleCheckpoint (bytes.headD 0).toUInt64) with
      | .ok records => .ok records
      | _ => .error "failed to decode Protobuf message" }

/-- A disk without files. -/
def sampleDisk : State := ⟨fun _ => none, []⟩

/-- A stream that fails after a checkpoint, and one that does not. -/
theorem saved_of_runs_sample :
    ∃ d', SavedInRuns sampleCodecs sampleLedger 1 ["saved"] 0 sampleDisk d' ∧
    ∀ v, 0 ≤ v → v ≤ 1 → d'.entries ["saved", pbName v] = some (.file [v.toUInt8]) := by
  have hfailed : Follows sampleLedger 0 1
      [.ok [sampleCheckpoint 0], .error ⟨14, "unavailable"⟩] := by
    constructor
    case consecutive => rfl
    case genuine => simp [delivered, sampleLedger, sampleCheckpoint]
    case complete => exact fun hnone => absurd (List.mem_cons_of_mem _ List.mem_cons_self) (hnone _)
  have hfollows : Follows sampleLedger 0 1 [.ok [sampleCheckpoint 0, sampleCheckpoint 1]] := by
    constructor
    case consecutive => rfl
    case genuine => simp [delivered, sampleLedger, sampleCheckpoint]
    case complete => simp [delivered]
  have hfirst : FollowsStream sampleLedger 0 1
      (.ok [.ok [sampleCheckpoint 0], .error ⟨14, "unavailable"⟩]) := by
    intro responses hresponses
    obtain rfl := Except.ok.inj hresponses
    exact hfailed
  have hsecond : FollowsStream sampleLedger 0 1
      (.ok [.ok [sampleCheckpoint 0, sampleCheckpoint 1]]) := by
    intro responses hresponses
    obtain rfl := Except.ok.inj hresponses
    exact hfollows
  have hruns : SavedInRuns sampleCodecs sampleLedger 1 ["saved"] 0 sampleDisk _ :=
    .interrupted hfirst rfl rfl (.finished hsecond rfl)
  exact ⟨_, hruns, saved_of_runs hruns⟩

end Runs

end AptosEtl.Worker
