import Shortlink.Store.Memory
/-!
# A store with faults

A link table some of whose operations answer a given error and do nothing else, and whose batches
may answer a wrong number of codes. It serves to show what a caller makes of a failing store.
-/
namespace Shortlink

inductive StoreMethod where
  | get | ownedBy | ping | stats | save | saveBatch | deleteBatch
deriving DecidableEq

structure FaultyStore where
  table : LinkTable
  /-- The error that an operation answers, if it is to fail. -/
  faults : StoreMethod → Option StoreError
  /-- How many codes a batch answers, if not one per link. -/
  batchCount : Option Nat

namespace FaultyStore

def filler : ShortCode := ⟨"FILLED__"⟩

def fit (n : Nat) (codes : List ShortCode) : List ShortCode :=
  codes.take n ++ List.replicate (n - codes.length) filler

def attempt {α : Type} (method : StoreMethod) (m : StoreM LinkTable α) : StoreM FaultyStore α :=
  fun s => match s.faults method with
    | some e => (.error e, s)
    | none => StoreM.within s.table (fun t => { s with table := t }) m s

end FaultyStore

open FaultyStore in
instance : LinkStore FaultyStore where
  get key := attempt .get (LinkStore.get key)
  ownedBy owner := attempt .ownedBy (LinkStore.ownedBy owner)
  ping := attempt .ping LinkStore.ping
  stats := attempt .stats LinkStore.stats
  save link owner := attempt .save (LinkStore.save link owner)
  saveBatch links owner := fun s =>
    match attempt .saveBatch (LinkStore.saveBatch links owner) s with
    | (.ok codes, s) => (.ok (match s.batchCount with | some n => fit n codes | none => codes), s)
    | (.error e, s) => (.error e, s)
  deleteBatch owner codes := attempt .deleteBatch (LinkStore.deleteBatch owner codes)

end Shortlink
