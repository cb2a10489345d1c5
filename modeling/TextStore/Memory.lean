/-!
# Memory requests

Every operation that needs room asks for it first and reports a refusal instead of going on.

* `wordRange` : sizes and positions are machine words, below `2 ^ 64`;
* `Memory` : which requests are granted, one field for each purpose a request can have;
* `Memory.ample` : grants everything;
* `Memory.host` : refuses a single region or copy of `2 ^ 63 - 1` bytes or more.
-/

namespace TextStore

/-- Sizes and positions are words below this bound, `2 ^ 64`. -/
def wordRange : Nat := 18446744073709551616

/-- The answers memory gives to the requests of one operation. -/
structure Memory where
  /-- Whether a text region of this many bytes is granted. -/
  region : Nat → Bool
  /-- Whether a copy of this many bytes of text is granted to a reader. -/
  copy : Nat → Bool
  /-- Whether a copy of this many bytes is granted to the history. -/
  recorded : Nat → Bool
  /-- Whether the history may take over this many operations at once. -/
  commit : Nat → Bool
  /-- Whether an open sequence may take one more operation. -/
  entry : Bool
  /-- Whether a store's list may take one more buffer. A refusal names the bytes asked for, which the
  host's layout of a stored buffer decides. -/
  slot : Except Nat Unit

namespace Memory

/-- Memory that grants every request. -/
def ample : Memory where
  region _ := true
  copy _ := true
  recorded _ := true
  commit _ := true
  entry := true
  slot := .ok ()

/-- The blocks a host hands out are smaller than this, `2 ^ 63 - 1` bytes. -/
def blockLimit : Nat := 9223372036854775807

/-- Memory that refuses only blocks no host can hand out. -/
def host : Memory where
  region n := decide (n < blockLimit)
  copy n := decide (n < blockLimit)
  recorded n := decide (n < blockLimit)
  commit _ := true
  entry := true
  slot := .ok ()

end Memory

end TextStore
