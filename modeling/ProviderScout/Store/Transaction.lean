import ProviderScout.Store.Database

/-!
Rows stored statement by statement in one transaction. The database engine may refuse any of the
statements; the transaction is then dropped, and with it what it has written.
-/

namespace ProviderScout

namespace StatsTable

/-- Inserts a row, or takes over its columns into the row that has its key. -/
def insertOrUpdate (t : StatsTable) (r : StatsRow) : StatsTable where
  rows := t.rows.alter r.key fun
    | none => some r
    | some old => some { old with
      successes := r.successes
      failures := r.failures
      bytes := r.bytes
      millis := r.millis
      speed := r.speed
      lastUsed := r.lastUsed }
  keyed k s h := by
    rw [SortedMap.get?_alter] at h
    split at h
    · rename_i hk
      cases hold : t.rows.get? r.key with
      | none =>
        rw [hold] at h
        cases h
        exact hk.symm
      | some old =>
        rw [hold] at h
        cases h
        exact (t.keyed r.key old hold).trans hk.symm
    · exact t.keyed k s h

end StatsTable

/-- What can be refused in a transaction: its start, the statement of a row, and its end. -/
inductive TransactionStep where
  | start
  | row (index : Nat)
  | commit
deriving DecidableEq

/-- Why the engine refuses a step, for the steps that it refuses. -/
abbrev Refusals := TransactionStep → Option SqlFault

/-- A database with a transaction: what it was at the start, and what the transaction has made of
it. -/
structure Transaction where
  committed : Database
  pending : Database

namespace Transaction

def start (refusals : Refusals) (d : Database) : Except QueryFault Transaction :=
  if !d.isOpen then .error .closed
  else match refusals .start with
    | some f => .error (.sql f)
    | none => .ok ⟨d, d⟩

def execute (refused : Option SqlFault) (r : StatsRow) (tx : Transaction) :
    Except QueryFault Unit × Transaction :=
  match refused with
  | some f => (.error (.sql f), tx)
  | none => match tx.pending.statsTable with
    | .error f => (.error f, tx)
    | .ok t => (.ok (), { tx with pending := tx.pending.withStats (t.insertOrUpdate r) })

/-- Stores rows one after another until one is refused; `i` is the index of the first. -/
def executeAll (refusals : Refusals) (i : Nat) (rows : List StatsRow) (tx : Transaction) :
    Except QueryFault Unit × Transaction :=
  match rows with
  | [] => (.ok (), tx)
  | r :: rows => match tx.execute (refusals (.row i)) r with
    | (.error f, tx) => (.error f, tx)
    | (.ok (), tx) => tx.executeAll refusals (i + 1) rows

/-- What is left of a transaction that is dropped. -/
def rollback (tx : Transaction) : Database := tx.committed

def store (refusals : Refusals) (rows : List StatsRow) (tx : Transaction) :
    Except Error Unit × Database :=
  match tx.executeAll refusals 0 rows with
  | (.error f, tx) => (.error (f.error "upsert provider stats"), tx.rollback)
  | (.ok (), tx) => match refusals .commit with
    | some f => (.error ((QueryFault.sql f).error "commit provider stats"), tx.rollback)
    | none => (.ok (), tx.pending)

end Transaction

/-- Stores rows in place of those with their keys, in one transaction. -/
def Database.upsertInSteps (refusals : Refusals) (rows : List StatsRow) (d : Database) :
    Except Error Unit × Database :=
  if rows.isEmpty then (.ok (), d)
  else match Transaction.start refusals d with
    | .error f => (.error (f.error "begin transaction"), d)
    | .ok tx => tx.store refusals rows

end ProviderScout
