import Unx511.Assignment3.Logger

/-!
Assignment 3, `LogServer.cpp`: how records are stored in `server_log.txt` and
read from it again. The level of a line is not stored apart, it is searched for
in the line.
-/

namespace Unx511.Assignment3

open Unx511.Text

def BUF_LEN : Nat := 1024

/-- The file after `log_message`: the message and two newlines. -/
def logMessage (message file : List Char) : List Char := file ++ (message ++ ['\n', '\n'])

/-- `receive_logs` with one datagram; `recvfrom` cuts it off behind the buffer. -/
def receiveLogs (datagram file : List Char) : List Char :=
  if 0 < (datagram.take BUF_LEN).length then logMessage (datagram.take BUF_LEN) file else file

def getLogLevelFromString (line : List Char) : LogLevel :=
  if LogLevel.critical.word <:+: line then .critical
  else if LogLevel.error.word <:+: line then .error
  else if LogLevel.warning.word <:+: line then .warning
  else .debug

/-- The test of `dump_log_file` for a level. -/
def LogLevel.passes (exactMatch : Bool) (server level : LogLevel) : Bool :=
  if exactMatch then level = server else server.toNat ≤ level.toNat

def dumpHeader (exactMatch : Bool) (server : LogLevel) : List Char :=
  ("---- server_log.txt (filtered " ++ (if exactMatch then "exactly" else "cumulatively") ++
    " for level " ++ toString server.toNat ++ ") ----").toList

def dumpFooter : List Char := "---- end of server_log.txt ----".toList

/-- The lines that `dump_log_file` prints; without a file it prints the frame only. -/
def dumpLogFile (exactMatch : Bool) (server : LogLevel) (file : Option (List Char)) :
    List (List Char) :=
  dumpHeader exactMatch server ::
    ((file.elim [] getlines).filter fun line =>
      LogLevel.passes exactMatch server (getLogLevelFromString line)) ++
    [dumpFooter]

end Unx511.Assignment3
