import KaworuOS.AddressSpace

/-!
# The loader of executables (`kernel/exec/elf.c`)

`file` holds the bytes that the memory has from the beginning of the file on, also those behind its
end: nothing but the checks of the code keeps an access inside. The loader remembers what it has read
of the file, as an offset and a size. Pointers into the file are not cut to 64 bits, offsets that the
code computes as integers are.
-/

namespace KaworuOS
open Lib

/-- A read of `size` bytes of the file from `offset` on. -/
structure FileRead where
  offset : Nat
  size : Nat
  deriving DecidableEq, Repr

/-- The memory management, and the reads of the file so far, the newest first. -/
structure Loading where
  mm : Mm
  reads : List FileRead

/-- Code of the loader. -/
abbrev Loader := Call Halt Loading

/-- A call of the memory management. -/
def onMm {α : Type} (x : Kernel α) : Loader α :=
  fun s => ((x s.mm).1, { s with mm := (x s.mm).2 })

/-- Reads a number of `size` bytes. -/
def readFile (file : Mem) (offset size : Nat) : Loader Nat :=
  fun s => (.ok (file.loadBytes offset size), { s with reads := ⟨offset, size⟩ :: s.reads })

/-- The memory after `memcpy` from the file. -/
def copiedFile (file mem : Mem) (dest offset size : Nat) : Mem :=
  fun x => if x < wordSize ∧ wsub x dest < size then file (offset + wsub x dest) else mem x

/-- `memcpy` from the file. -/
def memcpyFile (file : Mem) (dest offset size : Nat) : Loader Unit :=
  fun s => (.ok (), ⟨{ s.mm with mem := copiedFile file s.mm.mem dest offset size }, ⟨offset, size⟩ :: s.reads⟩)

/-- `memcmp` of known bytes with the file. -/
def memcmpFile (file : Mem) : List UInt8 → Nat → Loader Int
  | [], _ => return 0
  | byte :: rest, offset => do
    let other ← readFile file offset 1
    let diff := (byte.toNat : Int) - other
    if diff ≠ 0 then return diff
    memcmpFile file rest (offset + 1)

/-- `KNOWN_HEADER_MAGIC`. -/
def KNOWN_HEADER_MAGIC : List UInt8 := [0x7f, 0x45, 0x4c, 0x46]

abbrev ELF_HEADER_IDENT_CLASS_CLASS64 : Nat := 2
abbrev ELF_HEADER_IDENT_DATA_LSB : Nat := 1
abbrev ELF_PROGRAM_HEADER_TYPE_LOAD : Nat := 1
abbrev PF_X : Nat := 1
abbrev PF_W : Nat := 2

/-- `sizeof(ElfHeader)`. -/
abbrev ELF_HEADER_SIZE : Nat := 64

/-- `sizeof(ElfProgramHeader)`. -/
abbrev ELF_PROGRAM_HEADER_SIZE : Nat := 56

/-- `elf_verify_header_magic`. -/
def elfVerifyHeaderMagic (file : Mem) : Loader Bool := do
  let diff ← memcmpFile file KNOWN_HEADER_MAGIC 0
  return diff = 0

/-- `elf_verify_header`. -/
def elfVerifyHeader (file : Mem) : Loader Bool := do
  let known ← elfVerifyHeaderMagic file
  if known = false then return false
  let identClass ← readFile file 4 1
  if identClass ≠ ELF_HEADER_IDENT_CLASS_CLASS64 then return false
  let identData ← readFile file 5 1
  if identData ≠ ELF_HEADER_IDENT_DATA_LSB then return false
  return true

/-- The fields of an `ElfProgramHeader` that the loader uses beside its type. -/
structure ElfProgramHeader where
  flags : Nat
  offset : Nat
  vaddr : Nat
  filesz : Nat
  memsz : Nat
  deriving DecidableEq, Repr

/-- The program header at an offset of the file. -/
def programHeader (file : Mem) (start : Nat) : ElfProgramHeader where
  flags := file.loadBytes (start + 4) 4
  offset := file.loadBytes (start + 8) 8
  vaddr := file.loadBytes (start + 16) 8
  filesz := file.loadBytes (start + 32) 8
  memsz := file.loadBytes (start + 40) 8

/-- Reads the fields of a program header. -/
def readProgramHeader (file : Mem) (start : Nat) : Loader ElfProgramHeader := do
  let flags ← readFile file (start + 4) 4
  let offset ← readFile file (start + 8) 8
  let vaddr ← readFile file (start + 16) 8
  let filesz ← readFile file (start + 32) 8
  let memsz ← readFile file (start + 40) 8
  return ⟨flags, offset, vaddr, filesz, memsz⟩

/-- `verify_program_header`. -/
def verifyProgramHeader (ph : ElfProgramHeader) (elfSize : Nat) : Errno :=
  if ph.memsz < ph.filesz ∨ elfSize < ph.offset ∨ wsub elfSize ph.offset < ph.filesz ∨
      USER_VM_RANGE_END < ph.vaddr ∨ wsub USER_VM_RANGE_END ph.vaddr < ph.memsz then .EINVAL
  else .EOK

/-- Where the copy of a page begins in the page. -/
def copyStart (ph : ElfProgramHeader) (va : Nat) : Nat :=
  if va < ph.vaddr then wsub ph.vaddr va else 0

/-- Where it ends. -/
def copyEnd (ph : ElfProgramHeader) (va : Nat) : Nat :=
  if wadd ph.vaddr ph.filesz < wadd va PAGE_SIZE then wsub (wadd ph.vaddr ph.filesz) va else PAGE_SIZE

/-- The part of the loop body of `map_section_from_header` that copies the segment to the page. -/
def copySegment (file : Mem) (ph : ElfProgramHeader) (va page : Nat) : Loader Unit :=
  if copyEnd ph va ≤ copyStart ph va then return ()
  else
    let copySize := copyEnd ph va - copyStart ph va
    let segmentOffset := wsub (wadd va (copyStart ph va)) ph.vaddr
    let fileOffset := wadd ph.offset segmentOffset
    memcpyFile file (wadd page (copyStart ph va)) fileOffset copySize

/-- The loop of `map_section_from_header` with `n` pages to go. -/
def mapSectionPages (file : Mem) (ph : ElfProgramHeader) (perms : PagePerms) (uxn : ExecPerms) :
    Nat → Nat → AddressSpace → Loader (Nat × AddressSpace)
  | 0, _, as => return (0, as)
  | n + 1, va, as => do
    let pa ← onMm pmmAlloc
    if isErrValue pa then return (wordSize - pa, as)
    let (ret, as) ← onMm (addressSpaceMapOwned as va pa PAGE_SIZE perms uxn)
    if ret ≠ 0 then
      onMm (pmmFree pa)
      return (ret, as)
    let page ← onMm (pmmPhysToVirt pa)
    copySegment file ph va page
    mapSectionPages file ph perms uxn n (wadd va PAGE_SIZE) as

/-- The permissions of a segment for reading and writing. -/
def segmentPerms (ph : ElfProgramHeader) : PagePerms :=
  if ph.flags &&& PF_W ≠ 0 then .EL1_READ_WRITE_EL0_READ_WRITE else .EL1_READ_ONLY_EL0_READ_ONLY

/-- The permission of a segment for execution. -/
def segmentExec (ph : ElfProgramHeader) : ExecPerms :=
  if ph.flags &&& PF_X ≠ 0 then .EXECUTABLE else .NOT_EXECUTABLE

/-- `map_start`. -/
def mapStart (ph : ElfProgramHeader) : Nat := roundDown ph.vaddr

/-- `map_end`. -/
def mapEnd (ph : ElfProgramHeader) : Nat := roundUp (wadd ph.vaddr ph.memsz)

/-- `map_section_from_header`. The loop runs from `map_start` up to `map_end` in steps of one page; both
are page aligned and far from the end of the address space when the header has been verified. -/
def mapSectionFromHeader (file : Mem) (elfSize : Nat) (ph : ElfProgramHeader) (as : AddressSpace) :
    Loader (Nat × AddressSpace) :=
  if verifyProgramHeader ph elfSize ≠ .EOK then return ((verifyProgramHeader ph elfSize).code, as)
  else if ph.memsz = 0 then return (0, as)
  else
    mapSectionPages file ph (segmentPerms ph) (segmentExec ph) ((mapEnd ph - mapStart ph) / PAGE_SIZE) (mapStart ph) as

/-- The loop of `elf_load` over the program headers with the given numbers. -/
def elfLoadHeaders (file : Mem) (fileSize programHeaderOff : Nat) :
    List Nat → AddressSpace → Loader (Nat × AddressSpace)
  | [], as => return (0, as)
  | i :: rest, as => do
    let type ← readFile file (programHeaderOff + i * ELF_PROGRAM_HEADER_SIZE) 4
    if type = ELF_PROGRAM_HEADER_TYPE_LOAD then
      let ph ← readProgramHeader file (programHeaderOff + i * ELF_PROGRAM_HEADER_SIZE)
      let (ret, as) ← mapSectionFromHeader file fileSize ph as
      if ret ≠ 0 then return (ret, as)
      elfLoadHeaders file fileSize programHeaderOff rest as
    else elfLoadHeaders file fileSize programHeaderOff rest as

/-- `elf_load`. The result is the error code or the entry point. -/
def elfLoad (file : Mem) (fileSize : Nat) (as : AddressSpace) : Loader (Except Nat Nat × AddressSpace) := do
  let valid ← elfVerifyHeader file
  if valid = false then return (.error (Errno.code .EINVAL), as)
  let programHeaderOff ← readFile file 32 8
  let entryCount ← readFile file 56 2
  let (ret, as) ← elfLoadHeaders file fileSize programHeaderOff (List.range entryCount) as
  if ret ≠ 0 then return (.error ret, as)
  let entry ← readFile file 24 8
  return (.ok entry, as)

end KaworuOS
