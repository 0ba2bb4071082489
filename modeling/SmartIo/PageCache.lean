import SmartIo.KernelInt

/-!
# Inodes and folios

What the hooks of the page cache read of the objects of the kernel that they are
given: the inode a page belongs to, the device it is on, and the pages themselves. A
folio covers pages of one file, so its last page has an index too, and that is part
of what a folio is here.

A pointer to an `address_space` is read for its host only, and stands here as the
host; there is none if the pointer is null or the host is.
-/

/-- What is read of a `struct super_block`. -/
structure SuperBlock where
  sDev : U32
  /-- `s_type->name`. -/
  typeName : Option (List Char)
deriving DecidableEq, Repr

/-- What is read of a `struct inode`. -/
structure Inode where
  iIno : U64
  iSb : Option SuperBlock
deriving DecidableEq, Repr

/-- What is read of a `struct folio`. -/
structure Folio where
  index : ℕ
  /-- `folio_nr_pages`. -/
  nrPages : ℕ
  /-- The host of `folio_mapping`. -/
  host : Option Inode
  nrPages_pos : 0 < nrPages
  /-- The last page has an index, of the type `pgoff_t`. -/
  fits : index + nrPages ≤ 2 ^ 64
deriving DecidableEq, Repr

/-- `strscpy`, into an array of so many characters. -/
def strscpy (len : ℕ) (src : List Char) : List Char := src.take (len - 1)

/-- `ino ^ (s_dev << 32)`, of unsigned 64-bit numbers. -/
def inodeHashOf (ino : U64) (sDev : U32) : ℕ := ino.val ^^^ (sDev.val <<< 32)

namespace Folio

/-- `min_t(unsigned long, folio_nr_pages(folio), U32_MAX)`. -/
def pages (f : Folio) : ℕ := min f.nrPages u32Max

theorem pages_pos (f : Folio) : 0 < f.pages := lt_min f.nrPages_pos (by decide)

theorem pages_lt (f : Folio) : f.pages < 2 ^ 32 :=
  Nat.lt_of_le_of_lt (min_le_right _ _) (by decide)

end Folio
