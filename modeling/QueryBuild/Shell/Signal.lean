/-!
# Signals

The signals that one process can send to another, by their names and numbers.
-/

namespace QueryBuild.Shell.Signal

/-- The names of signals with what is said of a process that they ended. -/
def all : List (String × Nat × String) := [
  ("HUP", 1, "Hangup"), ("INT", 2, "Interrupt"), ("QUIT", 3, "Quit"),
  ("ILL", 4, "Illegal instruction"), ("TRAP", 5, "Trace/breakpoint trap"), ("ABRT", 6, "Aborted"),
  ("BUS", 7, "Bus error"), ("FPE", 8, "Floating point exception"), ("KILL", 9, "Killed"),
  ("USR1", 10, "User defined signal 1"), ("SEGV", 11, "Segmentation fault"),
  ("USR2", 12, "User defined signal 2"), ("PIPE", 13, "Broken pipe"), ("ALRM", 14, "Alarm clock"),
  ("TERM", 15, "Terminated"), ("STKFLT", 16, "Stack fault"), ("CHLD", 17, "Child exited"),
  ("CONT", 18, "Continued"), ("STOP", 19, "Stopped (signal)"), ("TSTP", 20, "Stopped"),
  ("TTIN", 21, "Stopped (tty input)"), ("TTOU", 22, "Stopped (tty output)"),
  ("URG", 23, "Urgent I/O condition"), ("XCPU", 24, "CPU time limit exceeded"),
  ("XFSZ", 25, "File size limit exceeded"), ("VTALRM", 26, "Virtual timer expired"),
  ("PROF", 27, "Profiling timer expired"), ("WINCH", 28, "Window changed"),
  ("IO", 29, "I/O possible"), ("PWR", 30, "Power failure"), ("SYS", 31, "Bad system call")]

/-- The signal that a name or a number says; zero stands for the end of a shell. -/
def ofText? (text : List Char) : Option Nat :=
  if !text.isEmpty && text.all Char.isDigit then some (Nat.ofDigitChars 10 text 0)
  else
    let name := String.ofList (text.map Char.toUpper)
    let name := if name.startsWith "SIG" then String.ofList (text.map Char.toUpper |>.drop 3)
      else name
    if name == "EXIT" then some 0 else (all.lookup name).map Prod.fst

def description (signal : Nat) : String :=
  ((all.find? fun entry => entry.2.1 == signal).map fun entry => entry.2.2).getD
    ("Unknown signal " ++ toString signal)

/-- Whether a signal does nothing unless it is trapped. -/
def isHarmless (signal : Nat) : Bool :=
  [0, 17, 18, 23, 28].contains signal

end QueryBuild.Shell.Signal
