/-!
# The probe script

The script that an interpreter runs to find a symbol: it imports the module, fetches the member,
and writes one report on its output. Whatever the imported code writes goes to the error stream.
-/

namespace ImportContext

/-- The lines of the probe script. -/
def probeLines : List String :=
  [
    "",
    "import importlib",
    "import inspect",
    "import json",
    "import sys",
    "",
    "real_stdout = sys.stdout",
    "sys.stdout = sys.stderr",
    "",
    "",
    "def emit(payload):",
    "    real_stdout.write(json.dumps(payload))",
    "    real_stdout.flush()",
    "",
    "",
    "def describe(err):",
    "    return \"%s: %s\" % (type(err).__name__, err)",
    "",
    "",
    "def is_missing(err, name):",
    "    missing = getattr(err, \"name\", None)",
    "    return missing is not None and (name == missing or name.startswith(missing + \".\"))",
    "",
    "",
    "def main(module_name, symbol):",
    "    try:",
    "        module = importlib.import_module(module_name)",
    "    except ModuleNotFoundError as err:",
    "        if is_missing(err, module_name):",
    "            emit(\x7b\"status\": \"missing\", \"message\": str(err)\x7d)",
    "        else:",
    "            emit(\x7b\"status\": \"error\", \"message\": describe(err)\x7d)",
    "        return",
    "    except BaseException as err:",
    "        emit(\x7b\"status\": \"error\", \"message\": describe(err)\x7d)",
    "        return",
    "",
    "    obj = module",
    "    fallback_name = module_name",
    "    if symbol and symbol != \"*\":",
    "        fallback_name = module_name + \".\" + symbol",
    "        try:",
    "            obj = getattr(module, symbol)",
    "        except AttributeError:",
    "            try:",
    "                obj = importlib.import_module(fallback_name)",
    "            except ModuleNotFoundError as err:",
    "                if is_missing(err, fallback_name):",
    "                    message = \"module %r has no attribute %r\" % (module_name, symbol)",
    "                    emit(\x7b\"status\": \"error\", \"message\": message\x7d)",
    "                else:",
    "                    emit(\x7b\"status\": \"error\", \"message\": describe(err)\x7d)",
    "                return",
    "            except BaseException as err:",
    "                emit(\x7b\"status\": \"error\", \"message\": describe(err)\x7d)",
    "                return",
    "",
    "    try:",
    "        source_file = inspect.getsourcefile(obj) or inspect.getfile(obj)",
    "    except TypeError:",
    "        source_file = None",
    "",
    "    lines, start_line = None, None",
    "    if symbol != \"*\":",
    "        try:",
    "            lines, start_line = inspect.getsourcelines(obj)",
    "        except (TypeError, OSError):",
    "            lines, start_line = None, None",
    "",
    "    if inspect.ismodule(obj):",
    "        qualified_name = obj.__name__",
    "    elif getattr(obj, \"__module__\", None) and getattr(obj, \"__qualname__\", None):",
    "        qualified_name = obj.__module__ + \".\" + obj.__qualname__",
    "    else:",
    "        qualified_name = fallback_name",
    "",
    "    try:",
    "        representation = repr(obj)",
    "    except BaseException as err:",
    "        representation = \"<unrepresentable: %s>\" % describe(err)",
    "",
    "    emit(\x7b",
    "        \"status\": \"found\",",
    "        \"file\": source_file,",
    "        \"start_line\": start_line,",
    "        \"lines\": lines,",
    "        \"representation\": representation,",
    "        \"qualified_name\": qualified_name,",
    "    \x7d)",
    "",
    "",
    "main(sys.argv[1], sys.argv[2])",
    "" ]

def probeScript : String :=
  String.intercalate "\n" probeLines

end ImportContext
