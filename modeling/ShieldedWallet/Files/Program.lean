/-
Programs by name.

A name with a slash is a path, followed from the working directory.  Any other
name is looked for in the directories set aside for programs, one after the
other, and the first program found is started.

* `FileTree.findProgram` — the program of a name, or why there is none;
* `FileTree.standard` — the places that every machine has.

Design notes: what is said of a name that starts nothing depends on what stands
there, so the usual directories, devices and plain files are listed.  Of the
usual programs only those are listed whose behaviour is their code.
-/
import ShieldedWallet.Files.Tree

namespace ShieldedWallet

/-- Why a name starts no program. -/
inductive StartFault where
  /-- The name leads nowhere. -/
  | path (fault : PathFault)
  /-- The name leads to something that is no program. -/
  | notExecutable
  /-- The name contains the character that ends names. -/
  | brokenName
  deriving DecidableEq

/-- What is said of a name that starts no program. -/
def StartFault.message : StartFault → String
  | .path fault => fault.message
  | .notExecutable => "Permission denied (os error 13)"
  | .brokenName => "nul byte found in provided data"

namespace FileTree

/-! ### Finding -/

/-- The directory that paths are followed from. -/
def workingDirectory : Place := ["work"]

/-- The code of the program at a path. -/
def programAt (t : FileTree) (path : String) : Except StartFault UInt8 :=
  match t.lookupFrom workingDirectory path with
  | .ok (.program code) => .ok code
  | .ok _ => .error .notExecutable
  | .error fault => .error (.path fault)

/-- The code of the first program of a name in some directories.  Something else of the name in one
of them counts only if there is no program in the others. -/
def searchProgram (t : FileTree) (name : String) : List String → Except StartFault UInt8
  | [] => .error (.path .missing)
  | directory :: directories =>
    match t.programAt (below directory name), t.searchProgram name directories with
    | .ok code, _ => .ok code
    | .error .notExecutable, .error _ => .error .notExecutable
    | .error _, later => later

/-- The directories set aside for programs. -/
def programDirectories : List String :=
  ["/usr/local/sbin", "/usr/local/bin", "/usr/sbin", "/usr/bin", "/sbin", "/bin"]

/-- The code of the program of a name. -/
def findProgram (t : FileTree) (name : String) : Except StartFault UInt8 :=
  if '\x00' ∈ name.toList then .error .brokenName
  else if name = "" then .error (.path .missing)
  else if '/' ∈ name.toList then t.programAt name
  else if nameLimit < name.utf8ByteSize then .error (.path .tooLong)
  else t.searchProgram name programDirectories

/-! ### The places of every machine -/

/-- The usual directories. -/
def standardDirectories : List String :=
  ["/work", "/bin", "/boot", "/dev", "/etc", "/home", "/lib", "/lib64", "/media", "/mnt", "/opt",
    "/proc", "/root", "/run", "/sbin", "/srv", "/sys", "/tmp", "/usr", "/var",
    "/dev/fd", "/dev/mqueue", "/dev/pts", "/dev/shm",
    "/proc/1", "/proc/net", "/proc/self", "/proc/sys",
    "/proc/self/cwd", "/proc/self/fd", "/proc/self/ns", "/proc/self/root", "/proc/self/task",
    "/sys/class", "/sys/devices", "/sys/fs", "/sys/kernel",
    "/usr/bin", "/usr/games", "/usr/include", "/usr/lib", "/usr/local", "/usr/sbin", "/usr/share",
    "/usr/src", "/usr/local/bin", "/usr/local/lib", "/usr/local/sbin",
    "/var/cache", "/var/lib", "/var/log", "/var/run", "/var/tmp"]

/-- The usual devices and plain files. -/
def standardFiles : List String :=
  ["/dev/full", "/dev/null", "/dev/ptmx", "/dev/random", "/dev/stderr", "/dev/stdin",
    "/dev/stdout", "/dev/tty", "/dev/urandom", "/dev/zero",
    "/etc/fstab", "/etc/group", "/etc/hostname", "/etc/hosts", "/etc/nsswitch.conf",
    "/etc/os-release", "/etc/passwd", "/etc/profile", "/etc/resolv.conf", "/etc/shadow",
    "/proc/cpuinfo", "/proc/filesystems", "/proc/loadavg", "/proc/meminfo", "/proc/mounts",
    "/proc/stat", "/proc/uptime", "/proc/version",
    "/proc/self/cmdline", "/proc/self/environ", "/proc/self/maps", "/proc/self/mem",
    "/proc/self/mounts", "/proc/self/stat", "/proc/self/status"]

/-- The usual programs that leave nothing behind but the code they end with. -/
def standardPrograms : List (String × UInt8) :=
  [("/bin/true", 0), ("/usr/bin/true", 0), ("/bin/false", 1), ("/usr/bin/false", 1),
    ("/bin/echo", 0), ("/usr/bin/echo", 0)]

/-- The places that every machine has. -/
def standard : FileTree :=
  let t := standardDirectories.foldl (fun t path => (t.makeDirectories path).2) empty
  let t := standardFiles.foldl (fun t path => (t.write path []).2) t
  standardPrograms.foldl (fun t p => (t.put p.1 (.program p.2)).2) t

end FileTree

end ShieldedWallet
