import Mathlib.Data.List.Basic

/-!
# YAML values

The values that a YAML document is read as, and the access to them: an index that
leads nowhere gives the null value, and a tag is looked through.
-/

/-- A float is kept as its bits. -/
inductive Yaml.Number where
  | posInt (value : UInt64)
  | negInt (value : Int64)
  | float (bits : UInt64)
deriving DecidableEq, Repr

/-- A mapping lists its entries, each key once. -/
inductive Yaml where
  | null
  | bool (value : Bool)
  | number (value : Yaml.Number)
  | string (text : String)
  | sequence (items : List Yaml)
  | mapping (entries : List (Yaml × Yaml))
  | tagged (tag : String) (value : Yaml)

namespace Yaml

def untag : Yaml → Yaml
  | tagged _ value => value.untag
  | value => value

def isKey (key : String) : Yaml → Bool
  | string text => text = key
  | _ => false

def isIndex (index : Nat) : Yaml → Bool
  | number (.posInt value) => value.toNat = index
  | _ => false

/-- The value of the first entry whose key passes the test. -/
def find (test : Yaml → Bool) (entries : List (Yaml × Yaml)) : Yaml :=
  ((entries.find? fun entry => test entry.1).map Prod.snd).getD null

def getKey (value : Yaml) (key : String) : Yaml :=
  match value.untag with
  | mapping entries => find (isKey key) entries
  | _ => null

/-- An item of a sequence, or an entry of a mapping that has numbers for keys. -/
def getIndex (value : Yaml) (index : Nat) : Yaml :=
  match value.untag with
  | sequence items => items.getD index null
  | mapping entries => find (isIndex index) entries
  | _ => null

instance : GetElem Yaml String Yaml fun _ _ => True where
  getElem value key _ := value.getKey key

instance : GetElem Yaml Nat Yaml fun _ _ => True where
  getElem value index _ := value.getIndex index

def asStr? (value : Yaml) : Option String :=
  match value.untag with
  | string text => some text
  | _ => none

def asSequence? (value : Yaml) : Option (List Yaml) :=
  match value.untag with
  | sequence items => some items
  | _ => none

def isMapping (value : Yaml) : Bool :=
  match value.untag with
  | mapping _ => true
  | _ => false

/-- The items of a sequence; another value has none. -/
def items (value : Yaml) : List Yaml :=
  value.asSequence?.getD []

/-- The items of a sequence that are texts. -/
def texts (value : Yaml) : List String :=
  value.items.filterMap asStr?

end Yaml
