import NinjaPlan.Text.Basic

/-! # System errors

The errors that operations on files and programs report, with the system's messages. -/

namespace NinjaPlan

/-- An error number of the system. -/
inductive OsError where
  | notPermitted
  | notFound
  | noProcess
  | noAddress
  | argumentsTooLong
  | execFormat
  | badDescriptor
  | permissionDenied
  | busy
  | alreadyExists
  | crossDevice
  | notDirectory
  | isDirectory
  | invalidArgument
  | noSpace
  | brokenPipe
  | nameTooLong
  | notEmpty
  | tooManyLinks
deriving DecidableEq, Repr

namespace OsError

def code : OsError → Nat
  | notPermitted => 1
  | notFound => 2
  | noProcess => 3
  | noAddress => 6
  | argumentsTooLong => 7
  | execFormat => 8
  | badDescriptor => 9
  | permissionDenied => 13
  | busy => 16
  | alreadyExists => 17
  | crossDevice => 18
  | notDirectory => 20
  | isDirectory => 21
  | invalidArgument => 22
  | noSpace => 28
  | brokenPipe => 32
  | nameTooLong => 36
  | notEmpty => 39
  | tooManyLinks => 40

def description : OsError → Text
  | notPermitted => "Operation not permitted"
  | notFound => "No such file or directory"
  | noProcess => "No such process"
  | noAddress => "No such device or address"
  | argumentsTooLong => "Argument list too long"
  | execFormat => "Exec format error"
  | badDescriptor => "Bad file descriptor"
  | permissionDenied => "Permission denied"
  | busy => "Device or resource busy"
  | alreadyExists => "File exists"
  | crossDevice => "Invalid cross-device link"
  | notDirectory => "Not a directory"
  | isDirectory => "Is a directory"
  | invalidArgument => "Invalid argument"
  | noSpace => "No space left on device"
  | brokenPipe => "Broken pipe"
  | nameTooLong => "File name too long"
  | notEmpty => "Directory not empty"
  | tooManyLinks => "Too many levels of symbolic links"

end OsError

/-- Why an operation on a file or a program failed. -/
inductive IoError where
  /-- The system refused it. -/
  | os (e : OsError)
  /-- A file name holds a NUL. -/
  | nulInFileName
  /-- An argument of a program holds a NUL. -/
  | nulInArgument
  /-- A file read as text is not UTF-8. -/
  | notUtf8
  /-- No part of a path could be created. -/
  | nothingCreated
deriving DecidableEq, Repr

def IoError.message : IoError → Text
  | os e => e.description ++ " (os error " ++ Text.ofNat e.code ++ ")"
  | nulInFileName => "file name contained an unexpected NUL byte"
  | nulInArgument => "nul byte found in provided data"
  | notUtf8 => "stream did not contain valid UTF-8"
  | nothingCreated => "failed to create whole tree"

end NinjaPlan
