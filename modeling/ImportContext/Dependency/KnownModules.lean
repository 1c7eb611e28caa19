/-!
# Names of well-known modules

Modules that are compiled into the interpreter, modules of the standard library, and modules
whose distribution is published under another name.
-/

namespace ImportContext

/-- Modules compiled into the interpreter. -/
def builtinModules : List String :=
  ["_abc", "_ast", "_codecs", "_collections", "_functools", "_imp", "_io", "_locale",
    "_operator", "_signal", "_sre", "_stat", "_string", "_symtable", "_thread", "_tokenize",
    "_tracemalloc", "_typing", "_warnings", "_weakref", "atexit", "builtins", "errno",
    "faulthandler", "gc", "itertools", "marshal", "posix", "pwd", "sys", "time", "xxsubtype"]

/-- Modules shipped with the standard library. -/
def standardModules : List String :=
  ["__future__", "_thread", "abc", "aifc", "argparse", "array", "ast", "asynchat", "asyncio",
    "asyncore", "base64", "bdb", "binascii", "bisect", "bz2", "cProfile", "calendar", "cgi",
    "cgitb", "chunk", "cmath", "cmd", "code", "codecs", "codeop", "collections", "colorsys",
    "compileall", "concurrent", "configparser", "contextlib", "contextvars", "copy", "copyreg",
    "crypt", "csv", "ctypes", "curses", "dataclasses", "datetime", "dbm", "decimal", "difflib",
    "dis", "distutils", "doctest", "email", "encodings", "ensurepip", "enum", "fcntl", "filecmp",
    "fileinput", "fnmatch", "fractions", "ftplib", "functools", "genericpath", "getopt",
    "getpass", "gettext", "glob", "graphlib", "grp", "gzip", "hashlib", "heapq", "hmac", "html",
    "http", "idlelib", "imaplib", "imghdr", "imp", "importlib", "inspect", "io", "ipaddress",
    "json", "keyword", "lib2to3", "linecache", "locale", "logging", "lzma", "mailbox", "mailcap",
    "math", "mimetypes", "mmap", "modulefinder", "msilib", "msvcrt", "multiprocessing", "netrc",
    "nis", "nntplib", "nt", "ntpath", "numbers", "opcode", "operator", "optparse", "os",
    "ossaudiodev", "pathlib", "pdb", "pickle", "pickletools", "pipes", "pkgutil", "platform",
    "plistlib", "poplib", "posixpath", "pprint", "profile", "pstats", "pty", "py_compile",
    "pyclbr", "pydoc", "pydoc_data", "pyexpat", "queue", "quopri", "random", "re", "readline",
    "reprlib", "resource", "rlcompleter", "runpy", "sched", "secrets", "select", "selectors",
    "shelve", "shlex", "shutil", "signal", "site", "smtpd", "smtplib", "sndhdr", "socket",
    "socketserver", "spwd", "sqlite3", "sre_compile", "sre_constants", "sre_parse", "ssl",
    "stat", "statistics", "string", "stringprep", "struct", "subprocess", "sunau", "symtable",
    "sysconfig", "syslog", "tabnanny", "tarfile", "telnetlib", "tempfile", "termios", "textwrap",
    "this", "threading", "timeit", "tkinter", "token", "tokenize", "tomllib", "trace",
    "traceback", "tracemalloc", "tty", "turtle", "turtledemo", "types", "typing", "unicodedata",
    "unittest", "urllib", "uu", "uuid", "venv", "warnings", "wave", "weakref", "webbrowser",
    "winreg", "winsound", "wsgiref", "xdrlib", "xml", "xmlrpc", "zipapp", "zipfile", "zipimport",
    "zlib", "zoneinfo"]

/-- Distributions by the name of the module they provide. -/
def distributionAliases : List (String × String) :=
  [("Crypto", "pycryptodome"), ("OpenSSL", "pyOpenSSL"), ("PIL", "Pillow"), ("attr", "attrs"),
    ("bs4", "beautifulsoup4"), ("cv2", "opencv-python"), ("dateutil", "python-dateutil"),
    ("docx", "python-docx"), ("dotenv", "python-dotenv"), ("fitz", "PyMuPDF"),
    ("git", "GitPython"), ("jose", "python-jose"), ("jwt", "PyJWT"), ("magic", "python-magic"),
    ("multipart", "python-multipart"), ("pkg_resources", "setuptools"), ("serial", "pyserial"),
    ("skimage", "scikit-image"), ("sklearn", "scikit-learn"), ("usb", "pyusb"),
    ("win32api", "pywin32"), ("yaml", "PyYAML"), ("zmq", "pyzmq")]

/-- The distribution that provides a module. -/
def distributionOf (module : String) : String :=
  (distributionAliases.lookup module).getD module

end ImportContext
