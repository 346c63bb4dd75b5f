import MongoDam.Lib.Text
import MongoDam.Observer.Processor

/-!
# The endpoints of a socket

The link of a descriptor names the inode of its socket, and the socket tables of the
process list each inode with its two addresses. The tables are tried one after the
other. A table that cannot be read ends the search, so that a socket which a later
table lists is found only when all tables before it can be read.
-/

namespace MongoDam.Observer

open Lib Schema

/-! ### Rows of a table -/

/-- `str::split_whitespace`. -/
def splitWhitespace (text : List Char) : List (List Char) :=
  (text.splitOnP isWhitespace).filter (· ≠ [])

/-- The bytes of an IPv6 address, which a table shows as four little-endian words. -/
def ipv6Bytes (address : List Char) : Option Bytes :=
  let encoded := toUtf8 (String.ofList address)
  if encoded.length ≠ 32 then none
  else
    ([0, 8, 16, 24].mapM fun start => do
      let word ← fromUtf8 ((encoded.drop start).take 8)
      let decoded ← fromStrRadix16 32 word.toList
      return leBytes 4 decoded).map List.flatten

def parseEndpoint (value : List Char) (ipv6 : Bool) : Option NetworkEndpoint := do
  let (address, port) ← splitOnce ':' value
  let port ← fromStrRadix16 16 port
  let address ←
    if ipv6 then (ipv6Bytes address).map ipv6Text
    else (fromStrRadix16 32 address).map fun encoded => ipv4Text (leBytes 4 encoded)
  return { address := some address, port := some port }

/-- The row has all its fields and is that of the inode. -/
def isRowOf (inode : List Char) (row : List (List Char)) : Bool :=
  10 ≤ row.length ∧ row[9]? = some inode

/-- The two endpoints of a row, when both are well formed. -/
def rowEndpoints (ipv6 : Bool) (row : List (List Char)) :
    Option (NetworkEndpoint × NetworkEndpoint) := do
  let localEndpoint ← parseEndpoint (row.getD 1 []) ipv6
  let remoteEndpoint ← parseEndpoint (row.getD 2 []) ipv6
  return (localEndpoint, remoteEndpoint)

/-- The rows of a table, behind its heading. -/
def tableRows (table : List Char) : List (List (List Char)) :=
  ((lines table).drop 1).map splitWhitespace

/-- The row loop of `parseProcNetTcp`. -/
def parseRows (wantedInode : List Char) (ipv6 : Bool) :
    List (List (List Char)) → Option (NetworkEndpoint × NetworkEndpoint)
  | [] => none
  | row :: rest =>
    if isRowOf wantedInode row then rowEndpoints ipv6 row else parseRows wantedInode ipv6 rest

def parseProcNetTcp (table wantedInode : List Char) (ipv6 : Bool) :
    Option (NetworkEndpoint × NetworkEndpoint) :=
  parseRows wantedInode ipv6 (tableRows table)

/-! ### Tables -/

/-- The files of the host below `host_proc`, by the parts of their paths. -/
structure ProcFs where
  /-- The target of a symbolic link. -/
  readLink : List String → Option Bytes
  /-- The contents of a file. -/
  readFile : List String → Option Bytes

/-- `fs::read_to_string`: what is not UTF-8 cannot be read. -/
def ProcFs.readToString (proc : ProcFs) (path : List String) : Option (List Char) :=
  ((proc.readFile path).bind fromUtf8).map String.toList

/-- A socket table of a process. -/
def ProcFs.table (proc : ProcFs) (tgid : ℕ) (name : String) : Option (List Char) :=
  proc.readToString [toString tgid, "net", name]

/-- The tables in the order in which they are tried. -/
def socketTables : List (String × Bool) :=
  [("tcp", false), ("tcp6", true), ("udp", false), ("udp6", true)]

/-- The inode of the socket a descriptor refers to. -/
def socketInode (proc : ProcFs) (tgid : ℕ) (fd : ℤ) : Option (List Char) := do
  let link ← proc.readLink [toString tgid, "fd", toString fd]
  let rest ← "socket:[".toList.isPrefixOf? (fromUtf8Lossy link).toList
  stripLast ']' rest

/-- The table loop of `resolveSocketEndpoints`. -/
def searchTables (proc : ProcFs) (tgid : ℕ) (inode : List Char) :
    List (String × Bool) → Option (NetworkEndpoint × NetworkEndpoint)
  | [] => none
  | (name, ipv6) :: rest =>
    match proc.table tgid name with
    | none => none
    | some table =>
      match parseProcNetTcp table inode ipv6 with
      | some value => some value
      | none => searchTables proc tgid inode rest

def resolveSocketEndpoints (proc : ProcFs) (tgid : ℕ) (fd : ℤ) :
    Option (NetworkEndpoint × NetworkEndpoint) :=
  match socketInode proc tgid fd with
  | none => none
  | some inode => searchTables proc tgid inode socketTables

/-! ### What the tables list -/

/-- The descriptor is a link to the socket with the inode. -/
def LinksTo (proc : ProcFs) (tgid : ℕ) (fd : ℤ) (inode : List Char) : Prop :=
  ∃ link, proc.readLink [toString tgid, "fd", toString fd] = some link ∧
    (fromUtf8Lossy link).toList = "socket:[".toList ++ inode ++ [']']

/-- The endpoints of the first well-formed row of the inode, over the tables that can be read. -/
def listedEndpoints (proc : ProcFs) (tgid : ℕ) (inode : List Char) :
    Option (NetworkEndpoint × NetworkEndpoint) :=
  socketTables.findSome? fun entry =>
    (proc.table tgid entry.1).bind fun table =>
      (tableRows table).findSome? fun row =>
        if isRowOf inode row then rowEndpoints entry.2 row else none

/-- The first row of the inode in a table. -/
def firstRow (inode table : List Char) : Option (List (List Char)) :=
  (tableRows table).find? (isRowOf inode)

/-- Some table begins its rows of the inode with one that has the given endpoints, and all
tables before it can be read and begin theirs with a malformed row, if they have any. -/
def FirstFound (proc : ProcFs) (tgid : ℕ) (inode : List Char) (tables : List (String × Bool))
    (endpoints : Option (NetworkEndpoint × NetworkEndpoint)) : Prop :=
  ∃ before name ipv6 after, tables = before ++ (name, ipv6) :: after ∧
    (∀ earlier ∈ before, ∃ table, proc.table tgid earlier.1 = some table ∧
      ∀ row, firstRow inode table = some row → rowEndpoints earlier.2 row = none) ∧
    ∃ table row, proc.table tgid name = some table ∧ firstRow inode table = some row ∧
      rowEndpoints ipv6 row = endpoints

/-- The first table that begins its rows of the inode with a well-formed one has only readable
tables before it, and that row has the endpoints of the first well-formed row of all tables. -/
def ReadableUpToRow (proc : ProcFs) (tgid : ℕ) (inode : List Char) : Prop :=
  FirstFound proc tgid inode socketTables (listedEndpoints proc tgid inode)

section Search

variable {proc : ProcFs} {tgid : ℕ} {fd : ℤ} {inode : List Char}

theorem stripLast_append (last : Char) (text : List Char) :
    stripLast last (text ++ [last]) = some text := by
  simp [stripLast]

/-- The inode of a socket is read off its link. -/
theorem LinksTo.socketInode (h : LinksTo proc tgid fd inode) :
    socketInode proc tgid fd = some inode := by
  obtain ⟨link, hlink, htext⟩ := h
  have hprefix : "socket:[".toList.isPrefixOf? (fromUtf8Lossy link).toList =
      some (inode ++ [']']) := by
    rw [htext, List.append_assoc]
    rfl
  rw [Observer.socketInode, hlink]
  simp only [Option.bind_eq_bind, Option.bind_some, hprefix, stripLast_append]

/-- Only the first row of the inode is looked at. -/
theorem parseRows_eq (ipv6 : Bool) (rows : List (List (List Char))) :
    parseRows inode ipv6 rows = (rows.find? (isRowOf inode)).bind (rowEndpoints ipv6) := by
  induction rows with
  | nil => rfl
  | cons row rest ih =>
    rw [parseRows, List.find?_cons]
    by_cases hrow : isRowOf inode row
    · simp [hrow]
    · simpa [hrow] using ih

theorem parseProcNetTcp_eq (table : List Char) (ipv6 : Bool) :
    parseProcNetTcp table inode ipv6 = (firstRow inode table).bind (rowEndpoints ipv6) :=
  parseRows_eq ipv6 _

/-- The search succeeds at the first table whose first row of the inode is well formed, if all
tables before it can be read. -/
theorem searchTables_eq_some {endpoints : NetworkEndpoint × NetworkEndpoint}
    {tables : List (String × Bool)} :
    searchTables proc tgid inode tables = some endpoints ↔
      FirstFound proc tgid inode tables (some endpoints) := by
  induction tables with
  | nil =>
    refine ⟨nofun, ?_⟩
    rintro ⟨before, name, ipv6, after, hsplit, -⟩
    simp at hsplit
  | cons entry rest ih =>
    obtain ⟨name, ipv6⟩ := entry
    rw [searchTables]
    constructor
    · intro h
      split at h
      · cases h
      · next table htable =>
        rw [parseProcNetTcp_eq] at h
        split at h
        · next value hvalue =>
          obtain ⟨row, hrow, hendpoints⟩ := Option.bind_eq_some_iff.mp hvalue
          rw [← Option.some.inj h]
          exact ⟨[], name, ipv6, rest, rfl, by simp, table, row, htable, hrow, hendpoints⟩
        · next hnone =>
          obtain ⟨before, found, six, after, rfl, hbefore, hfound⟩ := ih.mp h
          refine ⟨(name, ipv6) :: before, found, six, after, rfl, ?_, hfound⟩
          refine List.forall_mem_cons.mpr ⟨⟨table, htable, fun row hrow => ?_⟩, hbefore⟩
          rwa [hrow] at hnone
    · rintro ⟨before, found, six, after, hsplit, hbefore, table, row, htable, hrow, hendpoints⟩
      cases before with
      | nil =>
        obtain ⟨heq, rfl⟩ := List.cons_eq_cons.mp hsplit
        obtain ⟨rfl, rfl⟩ := Prod.mk.inj heq
        simp only [htable, parseProcNetTcp_eq, hrow, Option.bind_some, hendpoints]
      | cons entry before =>
        obtain ⟨rfl, rfl⟩ := List.cons_eq_cons.mp hsplit
        obtain ⟨⟨first, hfirst, hmalformed⟩, hlater⟩ := List.forall_mem_cons.mp hbefore
        have hnone : parseProcNetTcp first inode ipv6 = none := by
          rw [parseProcNetTcp_eq]
          exact Option.bind_eq_none_iff.mpr hmalformed
        simp only [hfirst, hnone]
        exact ih.mpr ⟨before, found, six, after, rfl, hlater, table, row, htable, hrow, hendpoints⟩

/-- The endpoints of a linked socket are those found first. -/
theorem LinksTo.resolves_iff (h : LinksTo proc tgid fd inode)
    {endpoints : NetworkEndpoint × NetworkEndpoint} :
    resolveSocketEndpoints proc tgid fd = some endpoints ↔
      FirstFound proc tgid inode socketTables (some endpoints) := by
  rw [resolveSocketEndpoints, h.socketInode]
  exact searchTables_eq_some

/-- The host with the answers that its files give. -/
def Host.withFiles (host : Host) (proc : ProcFs) : Host :=
  { host with resolveSocketEndpoints := Observer.resolveSocketEndpoints proc }

/-- A connection that is not cached is reported with the endpoints found first. -/
theorem LinksTo.socketEndpoints (h : LinksTo proc tgid fd inode)
    {endpoints : NetworkEndpoint × NetworkEndpoint}
    (hfound : FirstFound proc tgid inode socketTables (some endpoints)) {p : EventProcessor}
    (hnew : p.endpointCache.get? (tgid, fd) = none) (host : Host) :
    (p.socketEndpoints (host.withFiles proc) tgid fd).2 = some endpoints := by
  have hresolves : (host.withFiles proc).resolveSocketEndpoints tgid fd = some endpoints :=
    h.resolves_iff.mpr hfound
  simp only [EventProcessor.socketEndpoints, hnew, hresolves, Option.filter_none]

end Search

/-- The endpoints of a listed socket are found exactly when every table before the one that gives
them can be read, and that table does not list the inode in a malformed row first. -/
theorem resolveSocketEndpoints_iff {proc : ProcFs} {tgid : ℕ} {fd : ℤ} {inode : List Char}
    (hlink : LinksTo proc tgid fd inode) (hlisted : listedEndpoints proc tgid inode ≠ none) :
    resolveSocketEndpoints proc tgid fd = listedEndpoints proc tgid inode ↔
      ReadableUpToRow proc tgid inode := by
  obtain ⟨endpoints, hendpoints⟩ := Option.ne_none_iff_exists'.mp hlisted
  rw [ReadableUpToRow, hendpoints]
  exact hlink.resolves_iff

/-- A host with one process that has one socket, on descriptor 9, and the given tables. -/
def ProcFs.withTables (tables : List (String × String)) : ProcFs where
  readLink path := if path = ["7", "fd", "9"] then some (toUtf8 "socket:[77]") else none
  readFile path :=
    match path with
    | ["7", "net", name] => (tables.lookup name).map toUtf8
    | _ => none

/-- The heading of a table. -/
def tableHeading : String := " sl local_address\n"

/-- The row of a name lookup: from port 53000 of this host to its own resolver. -/
def lookupRow : String := "12: 0100007F:CF08 3500007F:0035 01 0:0 0:0 0 0 0 77\n"

theorem withTables_linksTo (tables : List (String × String)) :
    LinksTo (.withTables tables) 7 9 "77".toList := by
  have hpath : [toString (7 : ℕ), "fd", toString (9 : ℤ)] = ["7", "fd", "9"] := by decide +kernel
  refine ⟨toUtf8 "socket:[77]", ?_, by decide +kernel⟩
  rw [hpath]
  simp only [ProcFs.withTables, if_true]

/-- With all tables there, the endpoints of the lookup are found. -/
theorem lookupRow_resolved :
    resolveSocketEndpoints (.withTables [("tcp", tableHeading), ("tcp6", tableHeading),
        ("udp", tableHeading ++ lookupRow)]) 7 9 =
      some ({ address := some "127.0.0.1", port := some 53000 },
        { address := some "127.0.0.53", port := some 53 }) := by
  have hlisted : listedEndpoints (.withTables [("tcp", tableHeading), ("tcp6", tableHeading),
      ("udp", tableHeading ++ lookupRow)]) 7 "77".toList =
        some ({ address := some "127.0.0.1", port := some 53000 },
          { address := some "127.0.0.53", port := some 53 }) := by
    decide +kernel
  rw [← hlisted]
  refine (resolveSocketEndpoints_iff (withTables_linksTo _) (by rw [hlisted]; nofun)).mpr ?_
  refine ⟨[("tcp", false), ("tcp6", true)], "udp", false, [("udp6", true)], rfl, ?_, ?_⟩
  · have hheading : firstRow "77".toList tableHeading.toList = none := by decide +kernel
    simp only [List.forall_mem_cons, List.not_mem_nil, false_implies, implies_true, and_true]
    refine ⟨⟨tableHeading.toList, by decide +kernel, fun row hrow => ?_⟩,
      ⟨tableHeading.toList, by decide +kernel, fun row hrow => ?_⟩⟩
    · cases hheading.symm.trans hrow
    · cases hheading.symm.trans hrow
  · rw [hlisted]
    exact ⟨(tableHeading ++ lookupRow).toList, splitWhitespace lookupRow.toList,
      by decide +kernel, by decide +kernel, by decide +kernel⟩

/-- Without IPv6 there is no table `tcp6`, and the lookup that `udp` lists is not found. -/
theorem lookupRow_without_ipv6 :
    let proc := ProcFs.withTables [("tcp", tableHeading), ("udp", tableHeading ++ lookupRow)]
    LinksTo proc 7 9 "77".toList ∧ listedEndpoints proc 7 "77".toList ≠ none ∧
      resolveSocketEndpoints proc 7 9 ≠ listedEndpoints proc 7 "77".toList := by
  refine ⟨withTables_linksTo _, ?_, ?_⟩
  · decide +kernel
  · decide +kernel

end MongoDam.Observer
