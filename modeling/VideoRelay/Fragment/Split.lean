/-
Cutting NAL units into fragments.

* `cut budget data` — `data` in pieces of `budget` bytes, the last one shorter;
* `fragmentUnit` — the fragments of one unit;
* `fragmentStream` — the fragments of all units of a buffer;
* `flatten_cut` — the pieces are the data.

Design notes: the header byte of the unit is not carried as payload; its
importance is in the indicator and its type in the fragment header.  A unit of
nothing but its header still makes one fragment, with an empty piece.
-/
import VideoRelay.Fragment.Basic
import VideoRelay.Media.StartCode

namespace VideoRelay

/-- Cut `data` into pieces of `budget` bytes, behind the pieces in `done`, which
are in reverse. -/
def cutFrom (budget : Nat) (done : List Bytes) (data : Bytes) : List Bytes :=
  if budget = 0 ∨ data.drop budget = [] then (data :: done).reverse
  else cutFrom budget (data.take budget :: done) (data.drop budget)
termination_by data.length
decreasing_by
  rename_i h
  simp only [not_or, List.drop_eq_nil_iff] at h
  simp only [List.length_drop]
  omega

/-- `data` in pieces of `budget` bytes, the last of which may be shorter; empty
data is one empty piece. -/
def cut (budget : Nat) (data : Bytes) : List Bytes := cutFrom budget [] data

theorem flatten_cutFrom (budget : Nat) (done : List Bytes) (data : Bytes) :
    (cutFrom budget done data).flatten = done.reverse.flatten ++ data := by
  fun_induction cutFrom budget done data with
  | case1 done data => simp
  | case2 done data _ ih => simp [ih]

/-- The pieces are the data. -/
@[simp] theorem flatten_cut (budget : Nat) (data : Bytes) : (cut budget data).flatten = data := by
  simp [cut, flatten_cutFrom]

/-- The fragments of one unit, each with at most `budget` bytes of it. -/
def fragmentUnit (budget : Nat) (unit : Bytes) : Except FormatError (List Fragment) :=
  if budget = 0 then .error .zeroFragmentSize
  else
    match unit with
    | [] => .error (.nalUnitTooShort 0)
    | first :: rest =>
      let header := NalHeader.ofByte first
      let pieces := cut budget rest
      let count := pieces.length
      .ok (pieces.mapIdx fun i piece =>
        { indicator := .fragmentIndicator header.nri
          header := .make (i = 0) (i + 1 = count) header.unitType
          payload := piece })

/-- The fragments of all units of a buffer, in order.  One bad unit fails the
whole buffer. -/
def fragmentStream (budget : Nat) (data : Bytes) : Except FormatError (List Fragment) := do
  let fragments ← (nalUnits data).mapM (fragmentUnit budget)
  return fragments.flatten

end VideoRelay
