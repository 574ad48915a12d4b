import PairIndex.Ingest.Transaction
import PairIndex.Ledger.Client
import PairIndex.Proofs.Attempt
import PairIndex.Proofs.Json.RoundTrip

/-! The cache does not show. What is read back of a transaction that was cached is all that its processing depends on
(`LedgerTransaction.read_of_print`, `processTransaction_of_facts`), so that a client with a cache gives the answers of one
without, whenever the cache fails and whatever it forgets (`LedgerClient.cache_agrees`). -/

namespace PairIndex

/-! ## Transactions -/

/-- A number of sixty-four bits, with a sign or without. -/
def IsWord (n : Int) : Prop :=
  -9223372036854775808 ≤ n ∧ n < 18446744073709551616

instance (n : Int) : Decidable (IsWord n) :=
  inferInstanceAs (Decidable (_ ∧ _))

theorem IsWord.readable {n : Int} (h : IsWord n) : (Json.int n).Readable := by
  have hlt : n.natAbs < 10 ^ 20 := by
    obtain ⟨hlow, hhigh⟩ := h
    omega
  exact (Number.length_decimalChars_le 20 (by decide) hlt).trans (by decide)

/-- What a node tells of a transaction, in numbers of sixty-four bits. -/
structure RpcTransaction.Narrow (tx : RpcTransaction) : Prop where
  slot : IsWord tx.slot
  blockTime : ∀ seconds ∈ tx.blockTime, IsWord seconds

namespace LedgerTransaction

/-- What the processing of a transaction depends on. -/
def facts (tx : LedgerTransaction) : String × Int × Option Int × List String × Bool :=
  (tx.signature, tx.slot, tx.blockTime, tx.logs, tx.isFailed)

/-- A transaction whose numbers have sixty-four bits. -/
structure Narrow (tx : LedgerTransaction) : Prop where
  slot : IsWord tx.slot
  blockTime : ∀ seconds ∈ tx.blockTime, IsWord seconds

variable {tx tx' : LedgerTransaction}

theorem readable_items_map_str (texts : List String) : Json.ReadableItems (texts.map .str) := by
  induction texts with
  | nil => trivial
  | cons text texts ih => exact ⟨trivial, ih⟩

theorem Narrow.readable (h : tx.Narrow) : tx.toJson.Readable := by
  have hkeys : ["signature", "slot", "block_time", "log_messages", "err"].Nodup := by decide
  refine ⟨hkeys, trivial, h.slot.readable, ?_, readable_items_map_str tx.logs, ?_, trivial⟩
  · cases htime : tx.blockTime with
    | none => trivial
    | some seconds => exact (h.blockTime seconds htime).readable
  · split <;> trivial

theorem itemsOrNone_map_str (texts : List String) : (Json.arr (texts.map .str)).itemsOrNone = .ok (texts.map .str) := by
  cases texts <;> rfl

theorem toText_map_str (texts : List String) : (texts.map Json.str).map Json.toText = texts := by
  rw [List.map_map]
  exact List.map_id texts

/-- A transaction is read back from its JSON form, but for what went wrong, of which the text is kept. -/
theorem ofJson_toJson (tx : LedgerTransaction) :
    ofJson tx.toJson = .ok { tx with err := if tx.err.isNull then .null else .str tx.err.toText } := by
  have hsignature : tx.toJson.member "signature" = .ok (.str tx.signature) := rfl
  have hslot : tx.toJson.member "slot" = .ok (.int tx.slot) := rfl
  have htime : tx.toJson.optionalMember "block_time" = .ok (tx.blockTime.elim .null .int) := by
    obtain ⟨_, _, blockTime, _, _⟩ := tx
    cases blockTime <;> rfl
  have hlogs : tx.toJson.optionalMember "log_messages" = .ok (.arr (tx.logs.map .str)) := rfl
  have herr : tx.toJson.optionalMember "err" = .ok (if tx.err.isNull then .null else .str tx.err.toText) := rfl
  rw [ofJson, hsignature, hslot, htime, hlogs, herr]
  cases hblock : tx.blockTime <;>
    simp only [Option.elim_some, Option.elim_none, Json.ok_bind, Json.toInteger, Json.isNull, itemsOrNone_map_str,
      toText_map_str, Json.toText, if_true] <;>
    rfl

theorem facts_of_err {tx : LedgerTransaction} {err : Json} (h : err.isNull = tx.err.isNull) :
    { tx with err }.facts = tx.facts := by
  simp only [facts, isFailed, h]

/-- A transaction is read back from the text under which it is cached, up to what went wrong with it. -/
theorem Narrow.read_of_print (h : tx.Narrow) :
    ∃ read, LedgerClient.readCached tx.toJson.print = .ok read ∧ read.facts = tx.facts := by
  have herr : (if tx.err.isNull then Json.null else .str tx.err.toText).isNull = tx.err.isNull := by
    cases tx.err.isNull <;> rfl
  refine ⟨_, ?_, facts_of_err herr⟩
  rw [LedgerClient.readCached, Json.parse_print h.readable]
  simp only [ofJson_toJson]
  rfl

/-- The processing of a transaction depends on nothing else. -/
theorem processTransaction_of_facts (h : tx.facts = tx'.facts) (source : String) :
    processTransaction tx source = processTransaction tx' source := by
  simp only [facts, Prod.mk.injEq] at h
  obtain ⟨hsignature, hslot, htime, hlogs, hfailed⟩ := h
  have hdecoded : tx.decoded source = tx'.decoded source := by
    funext blockTime
    rw [decoded, decoded, hsignature, hslot, hlogs, hfailed]
  rw [processTransaction, processTransaction, decode, decode, htime, hdecoded]

end LedgerTransaction

/-! ## Answers -/

/-- A node with a set of transactions that never changes. -/
abbrev Node :=
  String → Option RpcTransaction

/-- What a node answers when it is asked for a transaction. -/
def Node.reply (node : Node) (signature : String) : RpcReply :=
  match node signature with
  | some tx => .transaction tx
  | none => .nothing

/-- What a client asks for: a signature, while the cache may fail, and may have forgotten some of its entries before. -/
structure Lookup where
  signature : String
  faults : CacheFaults := {}
  keeps : CacheEntry → Bool := fun _ => true

namespace LedgerClient

/-- A client before a lookup: the cache forgot some entries, and the node will answer if it is asked. -/
def before (client : LedgerClient) (node : Node) (lookup : Lookup) : LedgerClient :=
  { client with cache := client.cache.map (·.filter lookup.keeps), replies := [node.reply lookup.signature] }

def ask (node : Node) (client : LedgerClient) (lookup : Lookup) :
    Except Failure (Option LedgerTransaction) × LedgerClient :=
  (transaction lookup.faults lookup.signature).outcome (client.before node lookup)

/-- The answers to lookups, one after another. -/
def askAll (node : Node) (client : LedgerClient) : List Lookup → List (Except Failure (Option LedgerTransaction))
  | [] => []
  | lookup :: rest => (client.ask node lookup).1 :: (client.ask node lookup).2.askAll node rest

/-- Answers that have the same effect: both are the same failure, or there is no transaction in either, or the
transactions are processed in the same way, whatever the program and the database. -/
inductive Agrees : Except Failure (Option LedgerTransaction) → Except Failure (Option LedgerTransaction) → Prop where
  | failed (failure : Failure) : Agrees (.error failure) (.error failure)
  | unknown : Agrees (.ok none) (.ok none)
  | found {tx tx' : LedgerTransaction} : tx.facts = tx'.facts →
      (∀ source db, (processTransaction tx source).outcome db = (processTransaction tx' source).outcome db) →
      Agrees (.ok (some tx)) (.ok (some tx'))

/-- What a client tells that asks the node. -/
def plainAnswer (node : Node) (signature : String) : Except Failure (Option LedgerTransaction) :=
  if (Base58.decode? signature).any (·.length == 64) then .ok (transactionOf signature (node.reply signature))
  else .error notBase58

theorem Agrees.of_facts {tx tx' : LedgerTransaction} (h : tx.facts = tx'.facts) : Agrees (.ok (some tx)) (.ok (some tx')) :=
  .found h fun source db => by rw [LedgerTransaction.processTransaction_of_facts h source]

theorem Agrees.facts_eq {answer answer' : Except Failure (Option LedgerTransaction)} (h : Agrees answer answer') :
    answer.map (·.map (·.facts)) = answer'.map (·.map (·.facts)) := by
  cases h with
  | failed | unknown => rfl
  | found hfacts => simp only [Except.map, Option.map_some, hfacts]

theorem Agrees.refl (answer : Except Failure (Option LedgerTransaction)) : Agrees answer answer := by
  rcases answer with failure | _ | tx
  · exact .failed failure
  · exact .unknown
  · exact .of_facts rfl

/-- A cached text is that of the transaction that the node tells of the signature. -/
def Remembers (node : Node) (e : CacheEntry) : Prop :=
  ∀ signature, e.key = cacheKey signature →
    ∃ tx, plainAnswer node signature = .ok (some tx) ∧ e.text = tx.toJson.print

theorem cacheKey_inj {signature signature' : String} : cacheKey signature = cacheKey signature' ↔ signature = signature' :=
  String.append_right_inj _

theorem mem_setEntry {e entry : CacheEntry} {entries : List CacheEntry} (h : e ∈ setEntry entry entries) :
    e = entry ∨ e ∈ entries := by
  induction entries with
  | nil => exact .inl (List.mem_singleton.mp h)
  | cons first rest ih =>
    rw [setEntry] at h
    split at h
    · exact (List.mem_cons.mp h).imp_right (List.mem_cons_of_mem _)
    · rcases List.mem_cons.mp h with rfl | h
      · exact .inr List.mem_cons_self
      · exact (ih h).imp_right (List.mem_cons_of_mem _)

variable {client : LedgerClient} {node : Node}

theorem outcome_checkBase58 (size : Nat) (text : String) (client : LedgerClient) :
    (checkBase58 size text).outcome client =
      (if (Base58.decode? text).any (·.length == size) then .ok () else .error notBase58, client) := by
  rw [checkBase58]
  cases Base58.decode? text with
  | none => rfl
  | some bytes => by_cases h : bytes.length = size <;> simp [h]

theorem outcome_call (c : RpcCall) (client : LedgerClient) :
    (call c).outcome client = (.ok (client.replies.headD .nothing),
      { client with calls := client.calls ++ [c], replies := client.replies.tail }) := rfl

/-- What a client does that asks the node. -/
theorem outcome_fetch (faults : CacheFaults) (signature : String) (hreplies : client.replies = [node.reply signature]) :
    ∃ client', (fetch faults signature).outcome client = (plainAnswer node signature, client') ∧
      (client'.cache = client.cache ∨ ∃ tx entry, plainAnswer node signature = .ok (some tx) ∧
        entry.key = cacheKey signature ∧ entry.text = tx.toJson.print ∧
        client'.cache = client.cache.map (setEntry entry)) := by
  rw [fetch, plainAnswer]
  have hcheck := outcome_checkBase58 64 signature client
  by_cases hvalid : (Base58.decode? signature).any (·.length == 64) = true
  · rw [if_pos hvalid] at hcheck
    rw [Attempt.outcome_bind_of_ok hcheck, Attempt.outcome_bind_of_ok (Attempt.outcome_get client),
      Attempt.outcome_bind_of_ok (outcome_call _ client), hreplies, if_pos hvalid]
    simp only [List.headD_cons, Node.reply]
    cases hnode : node signature with
    | none => exact ⟨_, rfl, .inl rfl⟩
    | some tx =>
      simp only [RpcReply.failure?, transactionOf, Attempt.outcome_bind, Attempt.outcome_modify, Attempt.outcome_pure]
      refine ⟨_, rfl, ?_⟩
      rw [remember]
      split
      · exact .inl rfl
      · exact .inr ⟨_, _, rfl, rfl, rfl, rfl⟩
  · rw [if_neg hvalid] at hcheck
    rw [Attempt.outcome_bind_of_error hcheck, if_neg hvalid]
    exact ⟨_, rfl, .inl rfl⟩

/-- A lookup asks the node, or gives what is cached. -/
theorem ask_eq (node : Node) (client : LedgerClient) (lookup : Lookup) :
    client.ask node lookup =
      match cached? lookup.faults (client.before node lookup) (cacheKey lookup.signature) with
      | some text => ((readCached text).map some, client.before node lookup)
      | none => (fetch lookup.faults lookup.signature).outcome (client.before node lookup) := by
  rw [ask, transaction, Attempt.outcome_bind_of_ok (Attempt.outcome_get _)]
  cases cached? lookup.faults (client.before node lookup) (cacheKey lookup.signature) with
  | none => rfl
  | some text =>
    simp only
    cases readCached text <;> rfl

/-- A client without a cache asks the node. -/
theorem ask_of_no_cache (node : Node) (hcache : client.cache = none) (lookup : Lookup) :
    (client.ask node lookup).1 = plainAnswer node lookup.signature ∧ (client.ask node lookup).2.cache = none := by
  have hnone : (client.before node lookup).cache = none := by rw [before, hcache, Option.map_none]
  have hmiss : cached? lookup.faults (client.before node lookup) (cacheKey lookup.signature) = none := by
    rw [cached?, hnone]
    split <;> rfl
  have hreplies : (client.before node lookup).replies = [node.reply lookup.signature] := rfl
  obtain ⟨client', ho, hkept⟩ := outcome_fetch lookup.faults lookup.signature hreplies
  rw [ask_eq, hmiss, ho]
  refine ⟨rfl, ?_⟩
  rcases hkept with hkept | ⟨tx, entry, -, -, -, hkept⟩ <;> rw [hkept, hnone]
  rfl

theorem askAll_of_no_cache (node : Node) (hcache : client.cache = none) (lookups : List Lookup) :
    client.askAll node lookups = lookups.map fun lookup => plainAnswer node lookup.signature := by
  induction lookups generalizing client with
  | nil => rfl
  | cons lookup rest ih =>
    obtain ⟨hanswer, hnone⟩ := ask_of_no_cache node hcache lookup
    rw [askAll, hanswer, ih hnone, List.map_cons]

/-- All entries of the cache of a client tell what the node tells. -/
def Faithful (client : LedgerClient) (node : Node) : Prop :=
  ∀ entries ∈ client.cache, ∀ e ∈ entries, Remembers node e

theorem Faithful.before (h : client.Faithful node) (lookup : Lookup) : (client.before node lookup).Faithful node := by
  intro entries hentries e he
  obtain ⟨entries', hentries', rfl⟩ := Option.map_eq_some_iff.mp hentries
  exact h entries' hentries' e (List.mem_of_mem_filter he)

theorem Faithful.fetch (h : client.Faithful node) (faults : CacheFaults) (signature : String)
    (hreplies : client.replies = [node.reply signature]) :
    ((fetch faults signature).outcome client).1 = plainAnswer node signature ∧
      ((LedgerClient.fetch faults signature).outcome client).2.Faithful node := by
  obtain ⟨client', ho, hkept⟩ := outcome_fetch faults signature hreplies
  rw [ho]
  refine ⟨rfl, fun entries hentries e he => ?_⟩
  rcases hkept with hkept | ⟨tx, entry, hanswer, hkey, htext, hkept⟩
  · exact h entries (hkept ▸ hentries) e he
  · rw [hkept] at hentries
    obtain ⟨entries', hentries', rfl⟩ := Option.map_eq_some_iff.mp hentries
    rcases mem_setEntry he with rfl | he
    · intro signature' hkey'
      rw [← cacheKey_inj.mp (hkey.symm.trans hkey')]
      exact ⟨tx, hanswer, htext⟩
    · exact h entries' hentries' e he

/-- One lookup with a cache agrees with what the node tells, and the cache goes on to tell what the node tells. -/
theorem Faithful.ask (h : client.Faithful node)
    (hnode : ∀ signature tx, plainAnswer node signature = .ok (some tx) → tx.Narrow) (lookup : Lookup) :
    Agrees (client.ask node lookup).1 (plainAnswer node lookup.signature) ∧
      (client.ask node lookup).2.Faithful node := by
  have hbefore := h.before lookup
  rw [ask_eq]
  cases hhit : cached? lookup.faults (client.before node lookup) (cacheKey lookup.signature) with
  | none =>
    obtain ⟨hanswer, hfaithful⟩ := hbefore.fetch lookup.faults lookup.signature rfl
    exact ⟨hanswer ▸ .refl _, hfaithful⟩
  | some text =>
    rw [cached?, Option.ite_none_left_eq_some] at hhit
    obtain ⟨e, hfind, rfl⟩ := Option.map_eq_some_iff.mp hhit.2
    obtain ⟨entries, hentries⟩ : ∃ entries, (client.before node lookup).cache = some entries := by
      cases hcache : (client.before node lookup).cache with
      | none =>
        rw [hcache] at hfind
        cases hfind
      | some entries => exact ⟨entries, rfl⟩
    rw [hentries, Option.getD_some] at hfind
    have hkey : e.key = cacheKey lookup.signature := by simpa using List.find?_some hfind
    obtain ⟨tx, hanswer, htext⟩ := hbefore entries hentries e (List.mem_of_find?_eq_some hfind) lookup.signature hkey
    obtain ⟨read, hread, hfacts⟩ := (hnode _ tx hanswer).read_of_print
    refine ⟨?_, hbefore⟩
    rw [hanswer, htext]
    simp only [hread]
    exact .of_facts hfacts

theorem narrow_of_plainAnswer (hnode : ∀ signature tx, node signature = some tx → tx.Narrow) {signature : String}
    {tx : LedgerTransaction} (h : plainAnswer node signature = .ok (some tx)) : tx.Narrow := by
  rw [plainAnswer] at h
  split at h
  · cases hrpc : node signature with
    | none =>
      rw [Node.reply, hrpc] at h
      cases h
    | some rpc =>
      rw [Node.reply, hrpc] at h
      cases h
      exact ⟨(hnode signature rpc hrpc).slot, (hnode signature rpc hrpc).blockTime⟩
  · cases h

/-- Lookups give the same with and without a cache. -/
theorem askAll_agrees (hnode : ∀ signature tx, node signature = some tx → tx.Narrow) {plain : LedgerClient}
    (hplain : plain.cache = none) (hclient : client.Faithful node) (lookups : List Lookup) :
    List.Forall₂ Agrees (client.askAll node lookups) (plain.askAll node lookups) := by
  rw [askAll_of_no_cache node hplain]
  induction lookups generalizing client with
  | nil => exact .nil
  | cons lookup rest ih =>
    obtain ⟨hagrees, hfaithful⟩ := hclient.ask (fun _ _ => narrow_of_plainAnswer hnode) lookup
    exact .cons hagrees (ih hfaithful)

/-- Whenever its cache fails and whatever it forgets, a client whose cache was empty gives the answers of one without a
cache: the same failures, none where that gives none, and transactions that are processed in the same way. -/
theorem cache_agrees (client : LedgerClient) {node : Node} (hnode : ∀ signature tx, node signature = some tx → tx.Narrow)
    (lookups : List Lookup) :
    List.Forall₂ Agrees ({ client with cache := some [] }.askAll node lookups)
        ({ client with cache := none }.askAll node lookups) ∧
      ∀ tx : LedgerTransaction, tx.Narrow → ∃ read, readCached tx.toJson.print = .ok read ∧ read.facts = tx.facts := by
  refine ⟨askAll_agrees hnode rfl ?_ lookups, fun tx h => h.read_of_print⟩
  intro entries hentries e he
  cases hentries
  cases he

/-- The signature of sixty-four zero bytes. -/
def zeroSignature : String :=
  String.ofList (List.replicate 64 '1')

/-- A node that knows one transaction, which failed, with a log line that is escaped and needs a surrogate pair. -/
def smallNode : Node := fun signature =>
  if signature = zeroSignature then
    some { slot := 18446744073709551615, blockTime := some (-1)
           outcome := some ([String.ofList ['\t', Char.ofNat 0x1d11e, '"']], .obj [("Custom", .int 1)]) }
  else none

/-- Lookups of the known transaction, the first of which cannot write the cache and the last of which cannot read it, and
of no transaction. -/
def smallLookups : List Lookup :=
  [⟨zeroSignature, { onWrite := true }, fun _ => true⟩, ⟨zeroSignature, {}, fun _ => true⟩,
    ⟨zeroSignature, {}, fun _ => true⟩, ⟨zeroSignature, { onRead := true }, fun _ => true⟩, ⟨"", {}, fun _ => true⟩]

/-- The transaction is fetched twice as the cache could not be written, then read from the cache, then fetched again as
the cache could not be read. Each time it comes back as the node knows it. -/
theorem cache_agrees_small :
    (∀ signature tx, smallNode signature = some tx → tx.Narrow) ∧
      List.Forall₂ Agrees ({ cache := some [] : LedgerClient }.askAll smallNode smallLookups)
        ({ cache := none : LedgerClient }.askAll smallNode smallLookups) ∧
      ({ cache := some [] : LedgerClient }.askAll smallNode smallLookups).map (·.map (·.map (·.facts))) =
        List.replicate 4 (.ok (some (zeroSignature, 18446744073709551615, some (-1),
          [String.ofList ['\t', Char.ofNat 0x1d11e, '"']], true))) ++ [.error notBase58] := by
  have hnode : ∀ signature tx, smallNode signature = some tx → tx.Narrow := by
    intro signature tx h
    rw [smallNode, Option.ite_none_right_eq_some, Option.some.injEq] at h
    rw [← h.2]
    exact ⟨by decide, by decide⟩
  have hagrees := (cache_agrees {} hnode smallLookups).1
  have hfacts := List.forall₂_map_left_iff.mpr (List.forall₂_map_right_iff.mpr (hagrees.imp fun _ _ => Agrees.facts_eq))
  have hreply : smallNode.reply zeroSignature = .transaction
      { slot := 18446744073709551615, blockTime := some (-1)
        outcome := some ([String.ofList ['\t', Char.ofNat 0x1d11e, '"']], .obj [("Custom", .int 1)]) } := by
    rw [Node.reply, smallNode, if_pos rfl]
  have hknown : plainAnswer smallNode zeroSignature =
      .ok (transactionOf zeroSignature (smallNode.reply zeroSignature)) := if_pos (by decide +kernel)
  have hunknown : plainAnswer smallNode "" = .error notBase58 := if_neg (by decide +kernel)
  refine ⟨hnode, hagrees, ?_⟩
  have hplain : { cache := none : LedgerClient }.askAll smallNode smallLookups = _ :=
    askAll_of_no_cache smallNode rfl smallLookups
  rw [List.forall₂_eq_eq_eq, hplain] at hfacts
  rw [hfacts]
  simp only [smallLookups, List.map_cons, hknown, hunknown, hreply]
  rfl

end LedgerClient
end PairIndex
