import Campaign.Blob
import Campaign.Table.Query

/-!
# Stores

An open store is a table together with the codec for its samples. The table of a store on a file is
what the file holds; it outlives the store, and any store opened on the file goes on with it.
-/

namespace Campaign

structure Store where
  codec : Codec
  table : Table
  /-- Whether the table may be written. -/
  isWritable : Bool := true

namespace Store

/-- A store that no file holds. -/
def inMemory (codec : Codec) : Store :=
  { codec, table := .empty }

/-- Opens a store on what a file holds. -/
def openOn (codec : Codec) (file : Option Content) : Except Fault Store :=
  match Table.open? file with
  | .ok table => .ok { codec, table }
  | .error fault => .error (.database fault)

/-- What the file of a store holds. -/
def content (s : Store) : Content :=
  .table s.table .staged

def get (s : Store) (k : Key) : Except Fault (Option Record) :=
  s.table.get s.codec k

def query (s : Store) (f : Filter) : Except Fault (List Record) :=
  s.table.query s.codec f

def failedRecords (s : Store) : Except Fault (List Record) :=
  s.table.failedRecords s.codec

def catalogue (s : Store) : Except Fault Catalogue :=
  s.table.catalogue

def count (s : Store) : Nat :=
  s.table.count

end Store
end Campaign
