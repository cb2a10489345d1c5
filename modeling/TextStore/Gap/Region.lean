/-!
# Byte regions

The storage below a gap buffer: a fixed number of bytes that blocks are written into.

* `Region.zeroed n` : `n` zero bytes;
* `Region.write` : overwrites bytes from an index on;
* `Region.slide` : copies one range of the region to another place in it; the two may overlap;
* `Region.resplit` : a larger region with the same bytes before and after a gap.
-/

namespace TextStore

/-- A block of storage bytes. -/
abbrev Region := Array UInt8

namespace Region

def zeroed (size : Nat) : Region := Array.replicate size 0

/-- Overwrites the bytes from `offset` on with `bytes`. -/
def write (r : Region) (offset : Nat) (bytes : Array UInt8) : Region :=
  r.extract 0 offset ++ bytes ++ r.extract (offset + bytes.size) r.size

/-- Copies the bytes of `[start, stop)` to `dest`, reading all of them before writing any. -/
def slide (r : Region) (start stop dest : Nat) : Region :=
  r.write dest (r.extract start stop)

/-- A region of `size` bytes that starts with the first `front` bytes of `r` and ends with the
bytes of `r` from `back` on; what lies between is zero. -/
def resplit (r : Region) (front back size : Nat) : Region :=
  r.extract 0 front ++ zeroed (size - (r.size - back) - front) ++ r.extract back r.size

end Region

end TextStore
