import Conveyor.LedgerTerminals

/-!
# Ledgers given by their entries

A ledger is determined by what its events say: an entry names an event, its transaction and its
payload, and the chain fills in the rest. Whether the full check accepts such a ledger depends on
the entries alone, so that it can be decided without a digest (`valid_ledgerOf`).
-/

namespace Conveyor

open Library EventType

structure LedgerEntry where
  eventId : String
  kind : EventType
  transactionId : String
  workflow : WorkflowType
  payload : Fields

namespace LedgerEntry

def event (P : Platform) (L : LedgerIdentity) (events : List LedgerEvent) (entry : LedgerEntry) :
    LedgerEvent :=
  chainEvent P L events entry.eventId entry.kind entry.transactionId entry.workflow entry.payload

end LedgerEntry

def ledgerOf (P : Platform) (L : LedgerIdentity) (entries : List LedgerEntry) : List LedgerEvent :=
  entries.foldl (fun events entry => events ++ [entry.event P L events]) []

def entryHistory (entries : List LedgerEntry) (transactionId : String) : List EventType :=
  (entries.filter fun entry => entry.transactionId = transactionId).map fun entry => entry.kind

/-- The payload with which a transaction completes. -/
def entryCompletion (entries : List LedgerEntry) (transactionId : String) : Fields :=
  ((entries.find? fun entry => entry.transactionId = transactionId ∧
    entry.kind = transactionCompleted).map fun entry => entry.payload).getD []

/-- The entry has its own fields in order and may follow the entries before it. Gates and
    checkpoints are left out. -/
def EntryFollows (before : List LedgerEntry) (entry : LedgerEntry) : Prop :=
  entry.eventId ≠ "" ∧ entry.transactionId ≠ "" ∧
    entry.eventId ∉ (before.map fun other => other.eventId) ∧
    (∀ contract ∈ PAYLOAD_CONTRACTS entry.kind, ContractHolds entry.payload contract) ∧
    entry.kind ∉ [humanGateRaised, humanGateResolved, checkpointRecorded] ∧
    (entry.kind = transactionStarted →
      entryHistory before entry.transactionId = [] ∧
        entry.payload.get "resolved_gate_id" = .null ∧
        entry.payload.get "resolved_gate_fingerprint" = .null) ∧
    (entry.kind ≠ transactionStarted →
      transactionStarted ∈ entryHistory before entry.transactionId ∧
        (∀ other ∈ before, other.transactionId = entry.transactionId →
          other.workflow = entry.workflow) ∧
        (Terminated (entryHistory before entry.transactionId) →
          entry.kind ∈ POST_TERMINAL_EVENT_TYPES))

instance (before : List LedgerEntry) (entry : LedgerEntry) :
    Decidable (EntryFollows before entry) :=
  inferInstanceAs (Decidable (_ ∧ _ ∧ _ ∧ _ ∧ _ ∧ _ ∧ _))

/-- Every entry follows the entries before it. -/
def EntriesFollow (before : List LedgerEntry) : List LedgerEntry → Prop
  | [] => True
  | entry :: rest => EntryFollows before entry ∧ EntriesFollow (before ++ [entry]) rest

def decideEntriesFollow (before : List LedgerEntry) : (entries : List LedgerEntry) →
    Decidable (EntriesFollow before entries)
  | [] => .isTrue trivial
  | entry :: rest =>
      have := decideEntriesFollow (before ++ [entry]) rest
      inferInstanceAs (Decidable (EntryFollows before entry ∧ EntriesFollow _ rest))

instance (before entries : List LedgerEntry) : Decidable (EntriesFollow before entries) :=
  decideEntriesFollow before entries

/-- What the full check asks of the whole history of a transaction. -/
def HistoryFits (entries : List LedgerEntry) (transactionId : String) : Prop :=
  let history := entryHistory entries transactionId
  history.head? = some transactionStarted ∧ ReacquisitionsAuthorized history ∧
    (∀ pair ∈ ORDERED_PAIRS, InOrder history pair) ∧
    (sessionResultAccepted ∈ history → sessionLaunched ∈ history) ∧
    (validationPassed ∈ history → validationStarted ∈ history) ∧
    (commitFinalized ∈ history → validationPassed ∈ history) ∧
    (projectionUpdated ∈ history → ∃ kind ∈ TERMINAL_EVENT_TYPES, kind ∈ history) ∧
    (transactionCompleted ∈ history → missingLifecycle history = [] ∨
      ((entryCompletion entries transactionId).get "legacy_import").truthy = true) ∧
    ∀ kind ∈ history, kind ≠ projectionUpdated →
      ∀ predecessor ∈ requiredPredecessor [] kind, predecessor ∈ history

instance (history : List EventType) (pair : EventType × EventType) :
    Decidable (InOrder history pair) :=
  inferInstanceAs (Decidable (_ → _ → _))

instance (entries : List LedgerEntry) (transactionId : String) :
    Decidable (HistoryFits entries transactionId) :=
  inferInstanceAs (Decidable (_ ∧ _ ∧ _ ∧ _ ∧ _ ∧ _ ∧ _ ∧ _ ∧ _))

/-- The full check accepts the entries. -/
def EntriesValid (entries : List LedgerEntry) : Prop :=
  EntriesFollow [] entries ∧ ∀ entry ∈ entries, HistoryFits entries entry.transactionId

instance (entries : List LedgerEntry) : Decidable (EntriesValid entries) :=
  inferInstanceAs (Decidable (_ ∧ _))

/-! ### The ledger of the entries -/

variable {P : Platform} {L : LedgerIdentity} {entries before : List LedgerEntry}
  {entry : LedgerEntry} {transactionId : String}

theorem ledgerOf_snoc : ledgerOf P L (entries ++ [entry]) =
    ledgerOf P L entries ++ [entry.event P L (ledgerOf P L entries)] := by
  rw [ledgerOf, List.foldl_append]
  rfl

/-- What an event says. -/
def entryOf (event : LedgerEvent) : LedgerEntry :=
  ⟨event.eventId, event.eventType, event.transactionId, event.workflowType, event.payload⟩

theorem map_entryOf_ledgerOf (P : Platform) (L : LedgerIdentity) (entries : List LedgerEntry) :
    (ledgerOf P L entries).map entryOf = entries := by
  induction entries using List.reverseRecOn with
  | nil => rfl
  | append_singleton rest entry ih =>
      rw [ledgerOf_snoc, List.map_append, ih]
      rfl

theorem ids_ledgerOf : (ledgerOf P L entries).map (fun event => event.eventId) =
    entries.map fun entry => entry.eventId := by
  rw [← map_entryOf_ledgerOf P L entries, List.map_map, map_entryOf_ledgerOf]
  rfl

theorem historyOf_eq_entryHistory (events : List LedgerEvent) (transactionId : String) :
    historyOf events transactionId = entryHistory (events.map entryOf) transactionId := by
  rw [historyOf, entryHistory, List.filter_map, List.map_map]
  rfl

theorem completionPayload_eq_entryCompletion (events : List LedgerEvent) (transactionId : String) :
    completionPayload events transactionId =
      entryCompletion (events.map entryOf) transactionId := by
  rw [completionPayload, entryCompletion, List.find?_map, Option.map_map]
  rfl

theorem historyOf_ledgerOf :
    historyOf (ledgerOf P L entries) transactionId = entryHistory entries transactionId := by
  rw [historyOf_eq_entryHistory, map_entryOf_ledgerOf]

theorem follows_entry (h : EntryFollows entries entry) :
    Follows P (ledgerOf P L entries) (entry.event P L (ledgerOf P L entries)) := by
  obtain ⟨-, -, -, -, hplain, hstart, hlater⟩ := h
  simp only [List.mem_cons, List.not_mem_nil, or_false, not_or] at hplain
  obtain ⟨hraised, hresolved, hcheckpoint⟩ := hplain
  by_cases hkind : entry.kind = transactionStarted
  · obtain ⟨hnew, hid, hfingerprint⟩ := hstart hkind
    refine follows_of_started hkind ?_ ?_ rfl rfl
    · rw [← hnew]
      exact historyOf_ledgerOf
    · have hpayload : (entry.event P L (ledgerOf P L entries)).payload = entry.payload := rfl
      rw [resolutionBindingOf, hpayload, hid, hfingerprint]
      simp
  · obtain ⟨hbegun, hworkflow, hclosed⟩ := hlater hkind
    have hhistory : historyOf (ledgerOf P L entries) entry.transactionId =
        entryHistory entries entry.transactionId := historyOf_ledgerOf
    refine
      { workflow := ?_
        start := fun h => absurd h hkind
        begun := fun _ => Or.inl ?_
        terminal := fun h => ?_
        raised := fun h => absurd h hraised
        resolved := fun h => absurd h hresolved
        immutable := fun _ _ => ?_
        checkpoint := fun h => absurd h hcheckpoint
        chain := rfl
        fingerprint := rfl }
    · intro known hknown
      obtain ⟨other, hother, rfl⟩ := Option.map_eq_some_iff.mp hknown
      obtain ⟨hid, hmem⟩ := And.intro (List.find?_some hother) (List.mem_of_find?_eq_some hother)
      have hentry : entryOf other ∈ entries := by
        rw [← map_entryOf_ledgerOf P L entries]
        exact List.mem_map_of_mem hmem
      exact hworkflow _ hentry (of_decide_eq_true hid)
    · exact hhistory.symm ▸ hbegun
    · change ¬Terminated (historyOf (ledgerOf P L entries) entry.transactionId)
      rw [hhistory]
      intro hterminated
      have hpost := hclosed hterminated
      revert h hpost
      change entry.kind ∈ TERMINAL_EVENT_TYPES → entry.kind ∈ POST_TERMINAL_EVENT_TYPES → False
      cases entry.kind <;> decide
    · change ¬Terminated (historyOf (ledgerOf P L entries) entry.transactionId) ∨ _
      rw [hhistory]
      by_cases hterminated : Terminated (entryHistory entries entry.transactionId)
      · exact Or.inr (Or.inr (hclosed hterminated))
      · exact Or.inl hterminated

theorem replays_of_follow (hidentity : IdentityOk L) {rest : List LedgerEntry}
    (hbefore : Replays P L (ledgerOf P L before)) (h : EntriesFollow before rest) :
    Replays P L (ledgerOf P L (before ++ rest)) := by
  induction rest generalizing before with
  | nil => rwa [List.append_nil]
  | cons entry rest ih =>
      obtain ⟨hentry, hrest⟩ := h
      rw [List.append_cons]
      refine ih ?_ hrest
      rw [ledgerOf_snoc]
      refine hbefore.chain hidentity hentry.1 hentry.2.1 ?_ hentry.2.2.2.1 (follows_entry hentry)
      rw [ids_ledgerOf]
      exact hentry.2.2.1

theorem valid_ledgerOf (hidentity : IdentityOk L) (h : EntriesValid entries) :
    Valid P L (ledgerOf P L entries) := by
  refine ⟨replays_of_follow hidentity .nil h.1, fun transactionId hne => ?_⟩
  rw [historyOf_ledgerOf] at hne ⊢
  obtain ⟨kind, hkind⟩ := List.exists_mem_of_ne_nil _ hne
  obtain ⟨entry, hentry, -⟩ := List.mem_map.mp hkind
  obtain ⟨hmem, hid⟩ := List.mem_filter.mp hentry
  obtain ⟨h1, h2, h3, h4, h5, h6, h7, h8, -⟩ := h.2 entry hmem
  rw [of_decide_eq_true hid] at h1 h2 h3 h4 h5 h6 h7 h8
  exact ⟨h1, h2, h3, h4, h5, h6, h7, by rwa [completionPayload_eq_entryCompletion,
    map_entryOf_ledgerOf]⟩

/-- What the incremental check asks of an entry beyond what the full check asks of it. -/
def EntryAppends (before : List LedgerEntry) (entry : LedgerEntry) : Prop :=
  EntryFollows before entry ∧
    (entry.kind = leaseAcquired → leaseAcquired ∉ entryHistory before entry.transactionId) ∧
    (∀ kind ∈ requiredPredecessor (entryHistory before entry.transactionId) entry.kind,
      kind ∈ entryHistory before entry.transactionId) ∧
    (entry.kind = transactionCompleted →
      missingLifecycle (entryHistory before entry.transactionId) = [])

instance (before : List LedgerEntry) (entry : LedgerEntry) :
    Decidable (EntryAppends before entry) :=
  inferInstanceAs (Decidable (_ ∧ _ ∧ _ ∧ _))

/-- Every entry passes the incremental check after the entries before it. -/
def EntriesAppend (before : List LedgerEntry) : List LedgerEntry → Prop
  | [] => True
  | entry :: rest => EntryAppends before entry ∧ EntriesAppend (before ++ [entry]) rest

def decideEntriesAppend (before : List LedgerEntry) : (entries : List LedgerEntry) →
    Decidable (EntriesAppend before entries)
  | [] => .isTrue trivial
  | entry :: rest =>
      have := decideEntriesAppend (before ++ [entry]) rest
      inferInstanceAs (Decidable (EntryAppends before entry ∧ EntriesAppend _ rest))

instance (before entries : List LedgerEntry) : Decidable (EntriesAppend before entries) :=
  decideEntriesAppend before entries

theorem entriesAppend_append {rest more : List LedgerEntry} :
    EntriesAppend before (rest ++ more) ↔
      EntriesAppend before rest ∧ EntriesAppend (before ++ rest) more := by
  induction rest generalizing before with
  | nil => simp [EntriesAppend]
  | cons entry rest ih =>
      simp only [List.cons_append, EntriesAppend, ih, and_assoc, List.append_assoc,
        List.nil_append]

/-- An append of such an entry passes the incremental check. -/
theorem admitted_entry (h : EntryAppends before entry) :
    Admitted (ledgerOf P L before) (entry.event P L (ledgerOf P L before)) := by
  obtain ⟨hentry, hreacquired, hpredecessor, hlifecycle⟩ := h
  have hfollows : Follows P (ledgerOf P L before) (entry.event P L (ledgerOf P L before)) :=
    follows_entry hentry
  obtain ⟨-, -, hid, -, hplain, hstart, hlater⟩ := hentry
  simp only [List.mem_cons, List.not_mem_nil, or_false, not_or] at hplain
  have hhistory : historyOf (ledgerOf P L before) (entry.event P L (ledgerOf P L before)).transactionId =
      entryHistory before entry.transactionId := historyOf_ledgerOf
  refine
    { fresh := ?_, start := ?_, begun := ?_, reacquired := ?_, terminal := hfollows.terminal
      immutable := ?_, checkpoint := fun h => absurd h hplain.2.2, predecessor := ?_
      completion := ?_ }
  · rw [ids_ledgerOf]
    exact hid
  · intro hkind
    rw [hhistory]
    exact (hstart hkind).1
  · intro hkind
    rw [hhistory]
    exact List.ne_nil_of_mem (hlater hkind).1
  · intro hkind hmem
    rw [hhistory] at hmem
    exact absurd hmem (hreacquired hkind)
  · intro hkind
    rw [hhistory]
    by_cases hterminated : Terminated (entryHistory before entry.transactionId)
    · exact Or.inr ((hlater hkind).2.2 hterminated)
    · exact Or.inl hterminated
  · rw [hhistory]
    exact fun _ => hpredecessor
  · rw [hhistory]
    exact fun hkind => Or.inl (hlifecycle hkind)

/-- The files of such a ledger. -/
def storageOf (P : Platform) (L : LedgerIdentity) (entries : List LedgerEntry) : Storage :=
  ⟨(ledgerOf P L entries).map LedgerEvent.toObject, anchorOf P (ledgerOf P L entries), 0⟩

theorem coherent_ledgerOf (h : EntriesValid entries) :
    Coherent P (ledgerOf P L entries) (storageOf P L entries) fun _ => none where
  records := rfl
  head := rfl
  tail event hevent := by
    cases entries using List.reverseRecOn with
    | nil => cases hevent
    | append_singleton rest entry =>
        rw [ledgerOf_snoc, List.getLast?_append_of_ne_nil _ (by simp)] at hevent
        cases hevent
        exact ⟨by rw [ledgerOf_snoc, List.length_append]; rfl, rfl⟩
  caches := by simp
  closed transactionId := by
    rw [historyOf_ledgerOf]
    intro kind hkind
    obtain ⟨entry, hentry, rfl⟩ := List.mem_map.mp hkind
    obtain ⟨hmem, hid⟩ := List.mem_filter.mp hentry
    obtain ⟨-, -, -, -, -, -, -, -, hclosed⟩ := h.2 entry hmem
    rw [of_decide_eq_true hid] at hclosed
    exact hclosed entry.kind hkind

end Conveyor
